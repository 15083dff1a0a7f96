import DistJobManager.Manager

/-! `_process_event`, cut where the source lets other threads in: the unlocked lookup and
refresh of the live node, the transition under the lock, and the report and relaunch after it. -/

namespace DistJobManager

def podUniqueLabels (env : ManagerEnv) (node : Node) : PodLabels :=
  ⟨env.jobName, node.type, node.rankIndex, node.id⟩

/-- The deletion filter: skip a deletion while a pod with the node's labels runs, not deleting. -/
def skipDeletedEvent (env : ManagerEnv) (e : NodeEvent) : Bool :=
  (e.eventType = .deleted || e.node.status = .deleted) && !isPositiveExit e.node.exitReason &&
    match env.listNamespacedPod (podUniqueLabels env e.node) with
    | some pods => pods.any fun pod => pod.phase = .running && pod.deletionTimestamp.isNone
    | none => false

/-- The unlocked start: `none` ends the call (skipped event, unknown type or node). -/
def eventLookup (env : ManagerEnv) (e : NodeEvent) (m : DistributedJobManager) : Option Node :=
  if skipDeletedEvent env e then none else m.jobNodes.jobNode e.node.type e.node.id

/-- `_process_node_events`: the callbacks a flow notifies. -/
def processNodeEvents (flow : NodeStateFlow) (node : Node) : List Output :=
  if flow.toStatus = .running then [.nodeCallback .started node]
  else if flow.toStatus = .succeeded then [.nodeCallback .succeeded node]
  else if flow.toStatus = .failed then [.nodeCallback .failed node]
  else if flow.fromStatus ≠ .failed ∧ flow.fromStatus ≠ .succeeded ∧ flow.toStatus = .deleted then
    [.nodeCallback .deleted node]
  else []

@[simp] theorem relaunchedNodes_processNodeEvents (flow : NodeStateFlow) (node : Node) :
    relaunchedNodes (processNodeEvents flow node) = [] := by
  unfold processNodeEvents
  split_ifs <;> rfl

structure EventTransition where
  type : NodeType
  id : Nat
  oldStatus : NodeStatus
  newStatus : NodeStatus
  shouldRelaunch : Bool
  deriving DecidableEq, Repr

def lockedNode (e : NodeEvent) (cur : Node) : Node :=
  { cur with status := e.node.status, exitReason := e.node.exitReason }

section
variable {e : NodeEvent} {cur : Node}
@[simp] theorem lockedNode_type : (lockedNode e cur).type = cur.type := rfl
@[simp] theorem lockedNode_id : (lockedNode e cur).id = cur.id := rfl
@[simp] theorem lockedNode_status : (lockedNode e cur).status = e.node.status := rfl
end

/-- The section of `_process_event` under the lock, on the live node of the event's key. -/
def eventTransition (env : ManagerEnv) (e : NodeEvent) (m : DistributedJobManager) :
    DistributedJobManager × Option EventTransition :=
  match m.jobNodes.jobNode e.node.type e.node.id with
  | none => (m, none)
  | some cur =>
    match getNodeStateFlow cur.status e.eventType e.node.status with
    | none => (m, none)
    | some flow =>
      if flow.fromStatus = .succeeded then (m, none)
      else
        let node := lockedNode e cur
        let m := (m.write node).emit (processNodeEvents flow node)
        let (should, node, report) := shouldRelaunch env m.jobStage m.enableRelaunchNode node flow
        let m := (m.write node).emit report
        let m := if should && env.waitPendingRelaunch then
          { m with pendingRelaunchCount := m.pendingRelaunchCount + 1 } else m
        (m, some ⟨e.node.type, e.node.id, cur.status, flow.toStatus, should⟩)

/-- The rest of the call: the status report, then the relaunch, of the node as it is then. -/
def eventAfterLock (env : ManagerEnv) (t : EventTransition) (m : DistributedJobManager) :
    DistributedJobManager :=
  match m.jobNodes.jobNode t.type t.id with
  | none => m
  | some node =>
    let m := m.emit [.statusChange node t.oldStatus t.newStatus]
    if t.shouldRelaunch then relaunchNode env node m else m

/-- `_process_event_safely(event)`. -/
def processEvent (env : ManagerEnv) (e : NodeEvent) (m : DistributedJobManager) :
    DistributedJobManager :=
  match eventLookup env e m with
  | none => m
  | some cur =>
    let m := m.write (cur.updateInfo e.node)
    if e.eventType = .exit then closeJob m
    else
      match eventTransition env e m with
      | (m, none) => m
      | (m, some t) => eventAfterLock env t m

section Spec

variable {env : ManagerEnv} {e : NodeEvent} {cur : Node} {m : DistributedJobManager}

theorem eventLookup_some (h : eventLookup env e m = some cur) :
    skipDeletedEvent env e = false ∧ m.jobNodes.jobNode e.node.type e.node.id = some cur := by
  unfold eventLookup at h
  split at h
  · simp at h
  · simp_all

/-- A flow that is missing, or that leaves SUCCEEDED, is rejected. -/
def FlowRejected (cur : Node) (e : NodeEvent) : Prop :=
  ∀ f, getNodeStateFlow cur.status e.eventType e.node.status = some f → f.fromStatus = .succeeded

instance : Decidable (FlowRejected cur e) :=
  match h : getNodeStateFlow cur.status e.eventType e.node.status with
  | none => isTrue fun f hf => by simp [h] at hf
  | some f => if hs : f.fromStatus = .succeeded then isTrue fun f' hf => by simp_all
    else isFalse fun hr => hs (hr f h)

theorem not_flowRejected (hr : ¬FlowRejected cur e) :
    ∃ f, getNodeStateFlow cur.status e.eventType e.node.status = some f ∧ f.fromStatus ≠ .succeeded := by
  simpa [FlowRejected] using hr

theorem eventTransition_rejected (hcur : m.jobNodes.jobNode e.node.type e.node.id = some cur)
    (hr : FlowRejected cur e) : eventTransition env e m = (m, none) := by
  unfold eventTransition
  rw [hcur]
  dsimp only
  split
  · rfl
  · next f hf => simp [hr f hf]

theorem eventTransition_accepted {f : NodeStateFlow}
    (hcur : m.jobNodes.jobNode e.node.type e.node.id = some cur)
    (hf : getNodeStateFlow cur.status e.eventType e.node.status = some f)
    (hs : f.fromStatus ≠ .succeeded) :
    let r := shouldRelaunch env m.jobStage m.enableRelaunchNode (lockedNode e cur) f
    eventTransition env e m =
      ({ m with
          jobNodes := m.jobNodes.updateJobNode r.2.1
          outputs := m.outputs ++ processNodeEvents f (lockedNode e cur) ++ r.2.2
          pendingRelaunchCount :=
            m.pendingRelaunchCount + if r.1 && env.waitPendingRelaunch then 1 else 0 },
        some ⟨e.node.type, e.node.id, cur.status, f.toStatus, r.1⟩) := by
  have hk := shouldRelaunch_type env m.jobStage m.enableRelaunchNode (lockedNode e cur) f
  have hi := shouldRelaunch_id env m.jobStage m.enableRelaunchNode (lockedNode e cur) f
  simp only [eventTransition, hcur, hf, hs, if_false, DistributedJobManager.emit_jobStage,
    DistributedJobManager.write_jobStage, DistributedJobManager.emit_enableRelaunchNode,
    DistributedJobManager.write_enableRelaunchNode]
  generalize shouldRelaunch env m.jobStage m.enableRelaunchNode (lockedNode e cur) f = r at hk hi ⊢
  obtain ⟨should, node, report⟩ := r
  have hw := JobNodes.updateJobNode_updateJobNode m.jobNodes hk.symm hi.symm
  cases should <;> cases env.waitPendingRelaunch <;>
    simp [DistributedJobManager.write, DistributedJobManager.emit, hw]

theorem eventTransition_exited (env : ManagerEnv) (e : NodeEvent) (m : DistributedJobManager) :
    (eventTransition env e m).1.exited = m.exited := by
  unfold eventTransition
  split
  · rfl
  · split
    · rfl
    · split
      · rfl
      · dsimp only
        split <;> rfl

theorem eventAfterLock_of_jobNode {t : EventTransition} {n : Node}
    (h : m.jobNodes.jobNode t.type t.id = some n) :
    eventAfterLock env t m =
      if t.shouldRelaunch then relaunchNode env n (m.emit [.statusChange n t.oldStatus t.newStatus])
      else m.emit [.statusChange n t.oldStatus t.newStatus] := by
  simp [eventAfterLock, h]

theorem eventAfterLock_exited (env : ManagerEnv) (t : EventTransition) (m : DistributedJobManager) :
    (eventAfterLock env t m).exited = m.exited := by
  unfold eventAfterLock
  split
  · rfl
  · dsimp only
    split <;> simp

theorem processEvent_exited (hx : e.eventType ≠ .exit) : (processEvent env e m).exited = m.exited := by
  unfold processEvent
  split
  · rfl
  · next cur _ =>
    have h := eventTransition_exited env e (m.write (cur.updateInfo e.node))
    simp only [hx, if_false]
    rcases ht : eventTransition env e (m.write (cur.updateInfo e.node)) with ⟨m', _ | t⟩ <;>
      rw [ht] at h <;> dsimp only
    · simpa using h
    · rw [eventAfterLock_exited]
      simpa using h

theorem processEvent_exit (hl : eventLookup env e m = some cur) (hx : e.eventType = .exit) :
    processEvent env e m = closeJob (m.write (cur.updateInfo e.node)) := by
  simp [processEvent, hl, hx]

theorem jobNode_write_updateInfo (hl : eventLookup env e m = some cur) :
    (m.write (cur.updateInfo e.node)).jobNodes.jobNode e.node.type e.node.id =
      some (cur.updateInfo e.node) := by
  obtain ⟨-, ht, hi⟩ := JobNodes.jobNode_some (eventLookup_some hl).2
  simp [JobNodes.jobNode_updateJobNode, ht, hi]

theorem processEvent_rejected (hl : eventLookup env e m = some cur) (hr : FlowRejected cur e) :
    processEvent env e m =
      if e.eventType = .exit then closeJob (m.write (cur.updateInfo e.node))
      else m.write (cur.updateInfo e.node) := by
  have hr' : FlowRejected (cur.updateInfo e.node) e := by simpa [FlowRejected] using hr
  simp only [processEvent, hl]
  split_ifs <;> simp [eventTransition_rejected (jobNode_write_updateInfo hl) hr']

theorem processEvent_accepted {f : NodeStateFlow} (hl : eventLookup env e m = some cur)
    (hx : e.eventType ≠ .exit) (hf : getNodeStateFlow cur.status e.eventType e.node.status = some f)
    (hs : f.fromStatus ≠ .succeeded) :
    let node := lockedNode e (cur.updateInfo e.node)
    let r := shouldRelaunch env m.jobStage m.enableRelaunchNode node f
    let m' := { m with
      jobNodes := m.jobNodes.updateJobNode r.2.1
      outputs := m.outputs ++ processNodeEvents f node ++ r.2.2 ++
        [.statusChange r.2.1 cur.status f.toStatus]
      pendingRelaunchCount :=
        m.pendingRelaunchCount + if r.1 && env.waitPendingRelaunch then 1 else 0 }
    processEvent env e m = if r.1 then relaunchNode env r.2.1 m' else m' := by
  have hf' : getNodeStateFlow (cur.updateInfo e.node).status e.eventType e.node.status = some f := by
    simpa using hf
  obtain ⟨-, ht, hi⟩ := JobNodes.jobNode_some (eventLookup_some hl).2
  have hw : (m.jobNodes.updateJobNode (cur.updateInfo e.node)).updateJobNode
      (shouldRelaunch env m.jobStage m.enableRelaunchNode (lockedNode e (cur.updateInfo e.node)) f).2.1 =
      m.jobNodes.updateJobNode
        (shouldRelaunch env m.jobStage m.enableRelaunchNode (lockedNode e (cur.updateInfo e.node)) f).2.1 :=
    JobNodes.updateJobNode_updateJobNode _ (by simp) (by simp)
  simp only [processEvent, hl, hx, if_false, eventTransition_accepted (jobNode_write_updateInfo hl) hf' hs,
    DistributedJobManager.write_jobStage, DistributedJobManager.write_enableRelaunchNode]
  rw [eventAfterLock_of_jobNode (n := (shouldRelaunch env m.jobStage m.enableRelaunchNode
    (lockedNode e (cur.updateInfo e.node)) f).2.1) (by simp [JobNodes.jobNode_updateJobNode, ht, hi])]
  split_ifs <;> simp [DistributedJobManager.write, DistributedJobManager.emit, hw]

theorem processEvent_jobNode_self {f : NodeStateFlow} (hl : eventLookup env e m = some cur)
    (hx : e.eventType ≠ .exit) (hf : getNodeStateFlow cur.status e.eventType e.node.status = some f)
    (hs : f.fromStatus ≠ .succeeded) :
    let r := shouldRelaunch env m.jobStage m.enableRelaunchNode (lockedNode e (cur.updateInfo e.node)) f
    (processEvent env e m).jobNodes.jobNode e.node.type e.node.id =
      some (if r.1 && cur.type.hasNodeManager then { r.2.1 with relaunchable := false } else r.2.1) := by
  obtain ⟨-, ht, hi⟩ := JobNodes.jobNode_some (eventLookup_some hl).2
  have hm : (shouldRelaunch env m.jobStage m.enableRelaunchNode (lockedNode e (cur.updateInfo e.node))
      f).2.1.type.hasNodeManager = cur.type.hasNodeManager := by simp
  rw [processEvent_accepted hl hx hf hs]
  by_cases h1 : (shouldRelaunch env m.jobStage m.enableRelaunchNode (lockedNode e (cur.updateInfo e.node))
      f).1 = true
  · rw [if_pos h1]
    cases hc : cur.type.hasNodeManager
    · rw [relaunchNode_of_not_manager _ _ (hm.trans hc)]
      simp [h1, hc, JobNodes.jobNode_updateJobNode, ht, hi]
    · rw [relaunchNode_jobNode _ _ (hm.trans hc)]
      simp [h1, hc, ht, hi]
  · rw [if_neg h1]
    simp [h1, JobNodes.jobNode_updateJobNode, ht, hi]

end Spec

end DistJobManager
