import DistJobManager.ListNodes

/-! The other public operations of the manager, the job's start, and the sequential
manager, in which every call runs to its end before the next one starts. -/

namespace DistJobManager

def stopNode (n : Node) : Node := { n with critical := false, isReleased := true, relaunchable := false }

/-- `stop()` under the lock; `false` at the `KeyError` of a job without a worker entry. -/
def stopLocked (env : ManagerEnv) (m : DistributedJobManager) : DistributedJobManager × Bool :=
  let m := { m with jobNodes := m.jobNodes.updateJobNodes (m.jobNodes.all.map stopNode) }
  match m.jobNodes.byType .worker with
  | none => (m, false)
  | some workers =>
    ({ m with jobNodes := m.jobNodes.updateJobNodes (workers.map fun n =>
      { n with evalTime := env.getWorkerEvalTime n.id }) }, true)

def stop (env : ManagerEnv) (m : DistributedJobManager) : DistributedJobManager :=
  if m.stopped then m
  else
    match stopLocked env { m with enableRelaunchNode := false } with
    | (m, true) => { m with stopped := true }
    | (m, false) => m

@[simp] theorem stopLocked_outputs (env : ManagerEnv) (m : DistributedJobManager) :
    (stopLocked env m).1.outputs = m.outputs := by
  unfold stopLocked
  dsimp only
  split <;> rfl

@[simp] theorem stopLocked_exited (env : ManagerEnv) (m : DistributedJobManager) :
    (stopLocked env m).1.exited = m.exited := by
  unfold stopLocked
  dsimp only
  split <;> rfl

@[simp] theorem stop_outputs (env : ManagerEnv) (m : DistributedJobManager) :
    (stop env m).outputs = m.outputs := by
  unfold stop
  split_ifs
  · rfl
  · have := stopLocked_outputs env { m with enableRelaunchNode := false }
    rcases h : stopLocked env { m with enableRelaunchNode := false } with ⟨m₁, _ | _⟩ <;>
      rw [h] at this <;> exact this

def clearExitedNodes (env : ManagerEnv) (m : DistributedJobManager) : DistributedJobManager :=
  if !env.removeExitedNode then m
  else
    let released := (m.jobNodes.all.filter fun n => !n.isReleased && n.exited).map fun n =>
      { n with isReleased := true }
    let m := { m with jobNodes := m.jobNodes.updateJobNodes released }
    if released.isEmpty then m else m.emit [.scale { removeNodes := released }]

def clearAllNodes (m : DistributedJobManager) : DistributedJobManager :=
  let released := (m.jobNodes.all.filter fun n => !n.isReleased).map fun n =>
    { n with isReleased := true }
  { m with jobNodes := m.jobNodes.updateJobNodes released }.emit [.scale { removeNodes := released }]

def removedNode (n : Node) : Node :=
  { n with critical := false, relaunchable := false, isReleased := true, status := .deleted }

/-- `remove_training_nodes()`; without a worker or PS entry it raises before any change. -/
def removeTrainingNodes (m : DistributedJobManager) : DistributedJobManager :=
  match m.jobNodes.byType .worker, m.jobNodes.byType .ps with
  | some workers, some pss =>
    let removed := ((workers ++ pss).filter fun n =>
      (n.status = .running || n.status = .pending) && !n.isReleased).map removedNode
    { m with jobNodes := m.jobNodes.updateJobNodes removed }.emit [.scale { removeNodes := removed }]
  | _, _ => m

/-- `update_node_service_addr` after its read: the address, `RUNNING`, not released. -/
def serviceAddrNode (addr : String) (n : Node) : Node :=
  { n with serviceAddr := some addr, status := .running, isReleased := false }

def updateNodeServiceAddr (t : NodeType) (i : Nat) (addr : String) (m : DistributedJobManager) :
    DistributedJobManager :=
  match m.jobNodes.jobNode t i with
  | none => m
  | some n => m.write (serviceAddrNode addr n)

def updateNodeParalConfig (t : NodeType) (i : Nat) (config : String) (m : DistributedJobManager) :
    DistributedJobManager :=
  match m.jobNodes.jobNode t i with
  | none => m
  | some n => m.write { n with paralConfig := some config }

/-- Modelled from the spec: `Node.update_resource_usage`. -/
def Node.updateResourceUsage (n : Node) (cpu : ℚ) (memory : Nat) (gpuStats : List GPUStats) :
    Node :=
  { n with usedResource := { n.usedResource with cpu := cpu, memory := memory }, gpuStats := gpuStats }

/-- The hang logic of `update_node_resource_usage` on the live node; `none` sets nothing. -/
def resourceUsageWrite (env : ManagerEnv) (now : Nat) (n : Node) : Option Node :=
  if n.configResource.cpu ≠ 0 then
    if n.configResource.gpuNum ≠ 0 then none
    else if n.usedResource.cpu / n.configResource.cpu < env.hangCpuUsagePercentage then
      some (if n.startHangTime = 0 then { n with startHangTime := now } else n)
    else some { n with startHangTime := 0 }
  else none

theorem resourceUsageWrite_eq (env : ManagerEnv) (now : Nat) (n : Node) :
    resourceUsageWrite env now n =
      if n.configResource.cpu ≠ 0 ∧ n.configResource.gpuNum = 0 then
        some { n with
          startHangTime :=
            if n.usedResource.cpu / n.configResource.cpu < env.hangCpuUsagePercentage then
              if n.startHangTime = 0 then now else n.startHangTime
            else 0 }
      else none := by
  unfold resourceUsageWrite
  by_cases hc : n.configResource.cpu = 0
  · simp [hc]
  by_cases hg : n.configResource.gpuNum = 0
  · by_cases hs : n.startHangTime = 0 <;> simp [hc, hg, hs] <;> split_ifs <;> rfl
  · simp [hc, hg]

theorem resourceUsageWrite_some {env : ManagerEnv} {now : Nat} {n n' : Node}
    (h : resourceUsageWrite env now n = some n') : ∃ t, n' = { n with startHangTime := t } := by
  rw [resourceUsageWrite_eq] at h
  split at h
  · exact ⟨_, (Option.some.inj h).symm⟩
  · cases h

def updateHangTime (env : ManagerEnv) (t : NodeType) (i now : Nat) (m : DistributedJobManager) :
    DistributedJobManager :=
  match m.jobNodes.jobNode t i with
  | none => m
  | some n =>
    match resourceUsageWrite env now n with
    | none => m
    | some n => m.write n

/-- `update_node_resource_usage`: the usage is recorded on the live node, then the hang logic. -/
def updateNodeResourceUsage (env : ManagerEnv) (t : NodeType) (i : Nat) (cpu : ℚ) (memory : Nat)
    (gpuStats : List GPUStats) (now : Nat) (m : DistributedJobManager) : DistributedJobManager :=
  match m.jobNodes.jobNode t i with
  | none => m
  | some n => updateHangTime env t i now (m.write (n.updateResourceUsage cpu memory gpuStats))

def collectNodeHeartBeat (t : NodeType) (i : Nat) (timestamp : Nat) (m : DistributedJobManager) :
    DistributedJobManager :=
  match m.jobNodes.jobNode t i with
  | none => m
  | some n => m.write { n with heartbeatTime := timestamp }

def processReportedNodeEvent (e : NodeEvent) (m : DistributedJobManager) : DistributedJobManager :=
  let m := match m.jobNodes.jobNode e.node.type e.node.id with
    | some n => m.write { n with reportedStatus := some e.eventType }
    | none => m
  if e.eventType = .succeededExited then { m with jobStage := .jobStopping } else m

def processError (env : ManagerEnv) (node : Node) (level : TrainingExceptionLevel) :
    Bool × List Output :=
  jobManagerProcessError env node level

theorem processError_outputs (env : ManagerEnv) (n : Node) (level : TrainingExceptionLevel) :
    ∀ x ∈ (processError env n level).2, x = .cordonNode n.hostName := by
  unfold processError jobManagerProcessError handleNodeError
  split_ifs <;> simp

/-- `handle_training_failure` before `_relaunch_node`: `_process_error`'s outputs and decision. -/
def trainingFailureDecision (env : ManagerEnv) (n : Node) (level : TrainingExceptionLevel) :
    Bool × List Output :=
  if n.isReleased then (false, [])
  else
    let (relaunch, out) := processError env n level
    (relaunch && n.relaunchable, out)

theorem trainingFailureDecision_fst (env : ManagerEnv) (n : Node) (level : TrainingExceptionLevel) :
    (trainingFailureDecision env n level).1 =
      (!n.isReleased && level == .nodeError && n.relaunchable) := by
  unfold trainingFailureDecision processError jobManagerProcessError handleNodeError
  cases n.isReleased <;> by_cases hl : level = .nodeError <;> simp [hl]

theorem trainingFailureDecision_outputs (env : ManagerEnv) (n : Node) (level : TrainingExceptionLevel) :
    ∀ x ∈ (trainingFailureDecision env n level).2, x = .cordonNode n.hostName := by
  unfold trainingFailureDecision
  split_ifs
  · simp
  · exact processError_outputs env n level

@[simp] theorem relaunchedNodes_trainingFailureDecision (env : ManagerEnv) (n : Node)
    (level : TrainingExceptionLevel) : relaunchedNodes (trainingFailureDecision env n level).2 = [] :=
  List.filterMap_eq_nil_iff.mpr fun x hx => by rw [trainingFailureDecision_outputs env n level x hx]; rfl

def handleTrainingFailure (env : ManagerEnv) (t : NodeType) (i : Nat)
    (level : TrainingExceptionLevel) (m : DistributedJobManager) : DistributedJobManager :=
  match m.jobNodes.jobNode t i with
  | none => m
  | some n =>
    let d := trainingFailureDecision env n level
    if d.1 then relaunchNode env n (m.emit d.2) else m.emit d.2

def processNodeAction (env : ManagerEnv) (t : NodeType) (i : Nat) (m : DistributedJobManager) :
    DistributedJobManager :=
  match m.jobNodes.jobNode t i with
  | none => m
  | some n =>
    processEvent env ⟨.deleted, { n with status := .failed, exitReason := some .diagFail }⟩ m

def Node.isSucceededAndExited (n : Node) : Bool := n.reportedStatus = some .succeededExited

def Node.heartbeatExpired (n : Node) (now window : Nat) : Bool :=
  0 < n.heartbeatTime && window < now - n.heartbeatTime && n.startTime.isSome &&
    n.createTime.isSome && n.status = .running && !n.isSucceededAndExited

def Node.heartbeatAfterStart (n : Node) : Bool :=
  (n.startTime.getD 0) < n.heartbeatTime && (n.createTime.getD 0) < n.heartbeatTime

/-- `_get_dead_node_event(window)` at time `now`: the events and what the scan sends out. -/
def getDeadNodeEvent (env : ManagerEnv) (now window : Nat) (s : JobNodes) :
    List NodeEvent × List Output :=
  let dead := s.all.filter fun n => n.heartbeatExpired now window && n.heartbeatAfterStart
  (dead.map fun n => ⟨.deleted, { n with status := .failed, exitReason := some .noHeartbeat }⟩,
    dead.flatMap fun n => (processError env n .nodeError).2 ++ [.nodeNoHeartbeat n])

/-- `_monitor_node_heart_beat` at time `now`, with the default window of 600 s. -/
def monitorNodeHeartBeat (env : ManagerEnv) (now : Nat) (m : DistributedJobManager) :
    DistributedJobManager :=
  let (events, out) := getDeadNodeEvent env now 600 m.jobNodes
  events.foldl (fun m e => processEvent env e m) (m.emit out)

inductive Op
  | processEvent (e : NodeEvent)
  | processNodeAction (t : NodeType) (i : Nat)
  | monitorNodeHeartBeat (now : Nat)
  | handleTrainingFailure (t : NodeType) (i : Nat) (level : TrainingExceptionLevel)
  | stop
  | clearExitedNodes
  | clearAllNodes
  | removeTrainingNodes
  | updateNodeResourceUsage (t : NodeType) (i : Nat) (cpu : ℚ) (memory : Nat)
      (gpuStats : List GPUStats) (now : Nat)
  | updateNodeServiceAddr (t : NodeType) (i : Nat) (addr : String)
  | updateNodeParalConfig (t : NodeType) (i : Nat) (config : String)
  | collectNodeHeartBeat (t : NodeType) (i : Nat) (timestamp : Nat)
  | processReportedNodeEvent (e : NodeEvent)
  | processListNodes (nodes : List Node)

def Op.exec (env : ManagerEnv) : Op → DistributedJobManager → DistributedJobManager
  | .processEvent e => DistJobManager.processEvent env e
  | .processNodeAction t i => DistJobManager.processNodeAction env t i
  | .monitorNodeHeartBeat now => DistJobManager.monitorNodeHeartBeat env now
  | .handleTrainingFailure t i level => DistJobManager.handleTrainingFailure env t i level
  | .stop => DistJobManager.stop env
  | .clearExitedNodes => DistJobManager.clearExitedNodes env
  | .clearAllNodes => DistJobManager.clearAllNodes
  | .removeTrainingNodes => DistJobManager.removeTrainingNodes
  | .updateNodeResourceUsage t i cpu memory gpuStats now =>
    DistJobManager.updateNodeResourceUsage env t i cpu memory gpuStats now
  | .updateNodeServiceAddr t i addr => DistJobManager.updateNodeServiceAddr t i addr
  | .updateNodeParalConfig t i config => DistJobManager.updateNodeParalConfig t i config
  | .collectNodeHeartBeat t i timestamp => DistJobManager.collectNodeHeartBeat t i timestamp
  | .processReportedNodeEvent e => DistJobManager.processReportedNodeEvent e
  | .processListNodes nodes => fun m => (DistJobManager.processListNodes env nodes m).1

/-- One call of the sequential manager; after `os._exit` nothing runs. -/
def step (env : ManagerEnv) (m : DistributedJobManager) (op : Op) : DistributedJobManager :=
  if m.exited then m else op.exec env m

def run (env : ManagerEnv) (m : DistributedJobManager) (ops : List Op) : DistributedJobManager :=
  ops.foldl (step env) m

theorem run_cons (env : ManagerEnv) (m : DistributedJobManager) (op : Op) (ops : List Op) :
    run env m (op :: ops) = run env (step env m op) ops := rfl

theorem run_append (env : ManagerEnv) (m : DistributedJobManager) (ops ops' : List Op) :
    run env m (ops ++ ops') = run env (run env m ops) ops' :=
  List.foldl_append _ _ _ _

theorem run_of_exited (env : ManagerEnv) {m : DistributedJobManager} (h : m.exited = true) :
    ∀ ops, run env m ops = m
  | [] => rfl
  | op :: ops => by rw [run_cons, show step env m op = m by simp [step, h], run_of_exited env h ops]

structure NodeArgs where
  groupResource : NodeGroupResource
  restartCount : Nat
  criticalNodes : String

structure JobArgs where
  distributionStrategy : DistributionStrategy
  nodeArgs : NodeType → Option NodeArgs

def maxPodRelaunchCount : Nat := 5

def JobArgs.relaunchOnWorkerFailure (args : JobArgs) : Nat :=
  min (((args.nodeArgs .worker).map (·.restartCount)).getD 0) maxPodRelaunchCount

def JobArgs.psRelaunchMaxNum (args : JobArgs) : Nat :=
  min (((args.nodeArgs .ps).map (·.restartCount)).getD 0) maxPodRelaunchCount

def initTypeNodes (t : NodeType) (g : NodeGroupResource) (budget : Nat) (critical : Bool) :
    List Node :=
  (List.range g.count).map fun i =>
    { type := t, id := i, rankIndex := i, configResource := g.nodeResource,
      maxRelaunchCount := budget, critical := critical }

/-- Modelled from the spec: the store `_init_nodes` builds, with the two budgets. -/
def initJobNodes (args : JobArgs) (relaunchOnWorkerFailure psRelaunchMaxNum : Nat)
    (psIsCritical : Bool) : JobNodes :=
  NodeType.all.foldl (fun s t =>
    match args.nodeArgs t with
    | none => s
    | some a =>
      let critical := t = .ps && psIsCritical
      let budget := if critical then psRelaunchMaxNum else relaunchOnWorkerFailure
      (s.addType t).updateJobNodes (initTypeNodes t a.groupResource budget critical))
    JobNodes.empty

theorem initJobNodes_budget (args : JobArgs) (a b : Nat) (c : Bool) {t : NodeType} {i : Nat}
    {n : Node} (h : (initJobNodes args a b c).jobNode t i = some n) :
    n.maxRelaunchCount = a ∨ n.maxRelaunchCount = b := by
  unfold initJobNodes at h
  have h₀ : ∀ t i n, JobNodes.empty.jobNode t i = some n →
      n.maxRelaunchCount = a ∨ n.maxRelaunchCount = b := by
    simp [JobNodes.empty, JobNodes.jobNode, JobNodes.nodes]
  revert h h₀
  generalize JobNodes.empty = s
  generalize NodeType.all = L
  induction L generalizing s with
  | nil => exact fun h h₀ => h₀ _ _ _ h
  | cons t₁ L ih =>
    refine fun h h₀ => ih _ h fun t' i' n' hn' => ?_
    dsimp only at hn'
    split at hn'
    · exact h₀ _ _ _ hn'
    · rw [JobNodes.jobNode_updateJobNodes, JobNodes.jobNode_addType, Option.or_eq_some] at hn'
      rcases hn' with hx | ⟨-, hs⟩
      · obtain ⟨k, -, rfl⟩ := List.mem_map.mp (List.mem_reverse.mp (List.mem_of_find?_eq_some hx))
        split_ifs <;> simp
      · exact h₀ _ _ _ hs

/-- `__init__` and `start()`; a PS or custom job without PS arguments fails in `__init__`. -/
def DistributedJobManager.start (args : JobArgs) (hasRunningWorkers : Bool) :
    Option DistributedJobManager :=
  let psIsCritical : Option Bool :=
    if args.distributionStrategy = .allreduce then some false
    else (args.nodeArgs .ps).map (·.criticalNodes == "all")
  psIsCritical.map fun psIsCritical =>
    { jobNodes := initJobNodes args args.relaunchOnWorkerFailure args.psRelaunchMaxNum psIsCritical
      jobStage := .jobInit
      enableRelaunchNode := true
      stopped := false
      pendingRelaunchCount := 0
      exited := false
      outputs := if hasRunningWorkers then [] else
        [.scale { nodeGroupResources := NodeType.all.filterMap fun t =>
          (args.nodeArgs t).map fun a => (t, a.groupResource) }] }

end DistJobManager
