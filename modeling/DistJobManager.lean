import DistJobManager.Node
import DistJobManager.JobContext
import DistJobManager.Manager
import DistJobManager.ProcessEvent
import DistJobManager.Operations
import DistJobManager.Interleaving
import DistJobManager.EventEffects
import DistJobManager.Invariants
import DistJobManager.RelaunchPolicy
import DistJobManager.RemovePlans
import DistJobManager.Races
import DistJobManager.TerminalStatus
import DistJobManager.ListNodes
import DistJobManager.Heartbeat
import DistJobManager.ResourceUsage
import DistJobManager.Reconcile
import DistJobManager.JobStage
import DistJobManager.Cleanup
import DistJobManager.Launches
import DistJobManager.ConcurrentStop
import DistJobManager.ForcedRelaunch
