import DistJobManager.Operations

/-! What one event does to the node it names: the status the store keeps, the frame of a
rejected event, and what a replay of the same event changes. -/

namespace DistJobManager

/-- A cluster whose pods are all gone, for a job that removes exited nodes. -/
def goneEnv : ManagerEnv where
  jobName := "job"
  distributionStrategy := .allreduce
  removeExitedNode := true
  waitPendingRelaunch := false
  relaunchAlways := false
  cordonFaultNode := false
  maxMemory := 65536
  hangCpuUsagePercentage := 1 / 20
  listNamespacedPod := fun _ => none
  adjustOomResource := id
  getWorkerEvalTime := fun _ => 0

def oneNodeJob (n : Node) : DistributedJobManager where
  jobNodes := (JobNodes.empty.addType n.type).updateJobNode n
  jobStage := .jobRunning
  enableRelaunchNode := true
  stopped := false
  pendingRelaunchCount := 0
  exited := false
  outputs := []

def oneWorkerArgs : JobArgs :=
  ⟨.allreduce, fun t => if t = .worker then some ⟨⟨1, {}⟩, 3, ""⟩ else none⟩

def runningWorker : Node := { type := .worker, id := 0, status := .running, maxRelaunchCount := 3 }

section

variable {env : ManagerEnv} {e : NodeEvent} {cur : Node} {m : DistributedJobManager}

/-- A deleted running pod's event takes the flow to DELETED, yet the store keeps RUNNING. -/
theorem deleted_running_pod_stays_running :
    let e : NodeEvent := ⟨.deleted, { type := .worker, id := 0, status := .running }⟩
    getNodeStateFlow .running e.eventType e.node.status = some ⟨.running, .deleted, true⟩ ∧
      ((processEvent goneEnv e (oneNodeJob runningWorker)).jobNodes.jobNode .worker 0).map
        Node.status = some .running := by
  decide

/-- A rejected event only refreshes its node through `update_info` (an exit also closes the job). -/
theorem processEvent_rejected_frame {n : Node} (hn : m.jobNodes.jobNode e.node.type e.node.id = some n)
    (hr : FlowRejected n e) :
    ∃ n', n'.key = n.key ∧ n'.status = n.status ∧ n'.exitReason = n.exitReason ∧
      n'.relaunchable = n.relaunchable ∧ n.relaunchCount ≤ n'.relaunchCount ∧
      (processEvent env e m = m.write n' ∨
        e.eventType = .exit ∧ processEvent env e m = closeJob (m.write n')) := by
  cases hl : eventLookup env e m with
  | none =>
    obtain ⟨-, ht, hi⟩ := JobNodes.jobNode_some hn
    refine ⟨n, rfl, rfl, rfl, rfl, le_rfl, .inl ?_⟩
    rw [DistributedJobManager.write_of_jobNode m n (by rw [ht, hi]; exact hn)]
    simp [processEvent, hl]
  | some cur =>
    obtain rfl : cur = n := Option.some.inj ((eventLookup_some hl).2.symm.trans hn)
    refine ⟨cur.updateInfo e.node, rfl, rfl, rfl, rfl, le_max_left _ _, ?_⟩
    rw [processEvent_rejected hl hr]
    split_ifs with h
    · exact .inr ⟨h, rfl⟩
    · exact .inl rfl

theorem processEvent_rejected_frame_running :
    let e : NodeEvent := ⟨.modified, { type := .worker, id := 0, status := .running }⟩
    (oneNodeJob runningWorker).jobNodes.jobNode .worker 0 = some runningWorker ∧
      FlowRejected runningWorker e ∧
      ∃ n', n'.key = runningWorker.key ∧ n'.status = runningWorker.status ∧
        n'.exitReason = runningWorker.exitReason ∧ n'.relaunchable = runningWorker.relaunchable ∧
        runningWorker.relaunchCount ≤ n'.relaunchCount ∧
        (processEvent goneEnv e (oneNodeJob runningWorker) = (oneNodeJob runningWorker).write n' ∨
          e.eventType = .exit ∧
            processEvent goneEnv e (oneNodeJob runningWorker) =
              closeJob ((oneNodeJob runningWorker).write n')) :=
  ⟨by decide, by decide, processEvent_rejected_frame (by decide) (by decide)⟩

theorem rejected_deletion_releases_succeeded_worker :
    let n : Node := { runningWorker with status := .succeeded }
    FlowRejected n (lostEvent n) ∧
      ((processEvent goneEnv (lostEvent n) (oneNodeJob n)).jobNodes.jobNode .worker 0).map
        Node.isReleased = some true := by
  decide

end

end DistJobManager
