import DistJobManager.Invariants
import DistJobManager.EventEffects

/-! Heartbeats: the scan of `_get_dead_node_event`, and that only a report for a node sets its
`heartbeat_time`, to the report's timestamp, along every run. -/

namespace DistJobManager

section DeadNodes

/-- The scan reports, once each and in store order, the nodes the monitor is described to seek. -/
theorem getDeadNodeEvent_spec (env : ManagerEnv) (now window : Nat) (m : DistributedJobManager) :
    let dead := m.jobNodes.all.filter fun n =>
      n.status = .running ∧ n.createTime.isSome ∧ n.startTime.isSome ∧ 0 < n.heartbeatTime ∧
        window < now - n.heartbeatTime ∧
        max (n.createTime.getD 0) (n.startTime.getD 0) < n.heartbeatTime ∧
        n.isSucceededAndExited = false
    getDeadNodeEvent env now window m.jobNodes =
        (dead.map fun n => ⟨.deleted, { n with status := .failed, exitReason := some .noHeartbeat }⟩,
          dead.flatMap fun n => (processError env n .nodeError).2 ++ [.nodeNoHeartbeat n]) ∧
      (m.emit (getDeadNodeEvent env now window m.jobNodes).2).jobNodes = m.jobNodes := by
  refine ⟨?_, rfl⟩
  have hp : ∀ n : Node, (n.heartbeatExpired now window && n.heartbeatAfterStart) =
      decide (n.status = .running ∧ n.createTime.isSome ∧ n.startTime.isSome ∧
        0 < n.heartbeatTime ∧ window < now - n.heartbeatTime ∧
        max (n.createTime.getD 0) (n.startTime.getD 0) < n.heartbeatTime ∧
        n.isSucceededAndExited = false) := by
    intro n
    rw [Bool.eq_iff_iff]
    simp only [Node.heartbeatExpired, Node.heartbeatAfterStart, Bool.and_eq_true, decide_eq_true_eq,
      Nat.max_lt, Bool.not_eq_true']
    tauto
  simp only [getDeadNodeEvent, hp]

theorem released_worker_reported_dead :
    let n : Node := { runningWorker with
      isReleased := true, startTime := some 10, createTime := some 10, heartbeatTime := 100 }
    (getDeadNodeEvent goneEnv 1000 600 (oneNodeJob n).jobNodes).1 =
      [⟨.deleted, { n with status := .failed, exitReason := some .noHeartbeat }⟩] := by
  decide

end DeadNodes

/-- What an event does to the store: one write-back under its key, then maybe a relaunch. -/
theorem processEvent_jobNodes {R : JobNodes → Prop} (env : ManagerEnv) (e : NodeEvent)
    (m : DistributedJobManager) (hrefl : R m.jobNodes)
    (hwrite : ∀ cur n, m.jobNodes.jobNode e.node.type e.node.id = some cur → n.key = e.node.key →
      n.heartbeatTime = cur.heartbeatTime → R (m.jobNodes.updateJobNode n))
    (hrelaunch : ∀ (m' : DistributedJobManager) (node : Node), node.key = e.node.key →
      (m'.jobNodes.jobNode node.type node.id).map Node.heartbeatTime = some node.heartbeatTime →
      R m'.jobNodes → R (relaunchNode env node m').jobNodes) :
    R (processEvent env e m).jobNodes := by
  cases hl : eventLookup env e m with
  | none => simpa only [processEvent, hl] using hrefl
  | some cur =>
    have hcur := (eventLookup_some hl).2
    obtain ⟨-, ht, hi⟩ := JobNodes.jobNode_some hcur
    have hk : (cur.updateInfo e.node).key = e.node.key := by simp [Node.key, ht, hi]
    by_cases hx : e.eventType = .exit
    · rw [processEvent_exit hl hx]
      exact hwrite cur _ hcur hk rfl
    by_cases hr : FlowRejected cur e
    · rw [processEvent_rejected hl hr, if_neg hx]
      exact hwrite cur _ hcur hk rfl
    obtain ⟨f, hf, hs⟩ := not_flowRejected hr
    have hk' : (shouldRelaunch env m.jobStage m.enableRelaunchNode (lockedNode e (cur.updateInfo e.node))
        f).2.1.key = e.node.key := by simp [Node.key, ht, hi]
    have h₁ := hwrite cur _ hcur hk' (by simp [lockedNode, Node.updateInfo])
    rw [processEvent_accepted hl hx hf hs]
    split
    · exact hrelaunch _ _ hk' (by simp [JobNodes.jobNode_updateJobNode]) h₁
    · exact h₁

/-- Every node stored in `s` is stored in `s'` under its key, with the same heartbeat. -/
def HeartbeatKept (s s' : JobNodes) : Prop :=
  ∀ t i n, s.jobNode t i = some n → ∃ n', s'.jobNode t i = some n' ∧ n'.heartbeatTime = n.heartbeatTime

namespace HeartbeatKept

variable {s s₁ s₂ s₃ : JobNodes} {env : ManagerEnv} {m : DistributedJobManager}

theorem refl (s : JobNodes) : HeartbeatKept s s := fun _ _ n h => ⟨n, h, rfl⟩

theorem trans (h₁ : HeartbeatKept s₁ s₂) (h₂ : HeartbeatKept s₂ s₃) : HeartbeatKept s₁ s₃ :=
  fun t i n h =>
    let ⟨n₂, h₂', e₂⟩ := h₁ t i n h
    let ⟨n₃, h₃, e₃⟩ := h₂ t i n₂ h₂'
    ⟨n₃, h₃, e₃.trans e₂⟩

theorem write {t : NodeType} {i : Nat} {n₀ n : Node} (h : s.jobNode t i = some n₀)
    (hk : n.key = (t, i)) (hb : n.heartbeatTime = n₀.heartbeatTime) :
    HeartbeatKept s (s.updateJobNode n) := by
  obtain ⟨ht, hi⟩ := Prod.mk.inj hk
  intro t' i' x hx
  rw [JobNodes.jobNode_updateJobNode]
  split_ifs with hti
  · obtain ⟨rfl, rfl⟩ := hti
    rw [ht, hi, h] at hx
    cases hx
    exact ⟨n, rfl, hb⟩
  · exact ⟨x, hx, rfl⟩

theorem write_new {n : Node} (h : s.jobNode n.type n.id = none) : HeartbeatKept s (s.updateJobNode n) := by
  intro t i x hx
  rw [JobNodes.jobNode_updateJobNode]
  split_ifs with hti
  · obtain ⟨rfl, rfl⟩ := hti
    rw [h] at hx
    cases hx
  · exact ⟨x, hx, rfl⟩

theorem updateJobNodes (f g : Node → Node) (hk : ∀ n, (f n).key = (g n).key)
    (hb : ∀ n, (f n).heartbeatTime = (g n).heartbeatTime) {l : List Node}
    (hst : ∀ n ∈ l, m.jobNodes.jobNode n.type n.id = some (g n)) (hnd : (l.map Node.key).Nodup) :
    HeartbeatKept m.jobNodes (m.jobNodes.updateJobNodes (l.map f)) :=
  @updateJobNodes_of_write (fun m' => HeartbeatKept m.jobNodes m'.jobNodes) f g hk (fun _ => True)
    (fun _ n hI _ h => hI.trans (write h rfl (hb n))) l m (refl _)
    (fun n hn => ⟨trivial, hst n hn⟩) hnd

theorem updateFiltered (P : Node → Bool) (f : Node → Node) (hk : ∀ n, (f n).key = n.key)
    (hb : ∀ n, (f n).heartbeatTime = n.heartbeatTime) :
    HeartbeatKept m.jobNodes (m.jobNodes.updateJobNodes ((m.jobNodes.all.filter P).map f)) :=
  have hst := stored_of_sublist (List.filter_sublist (p := P) m.jobNodes.all)
  updateJobNodes f id hk hb hst.1 hst.2

theorem relaunchNode {node : Node}
    (h : (m.jobNodes.jobNode node.type node.id).map Node.heartbeatTime = some node.heartbeatTime)
    (h₀ : HeartbeatKept s m.jobNodes) :
    HeartbeatKept s (DistJobManager.relaunchNode env node m).jobNodes := by
  refine h₀.trans ?_
  cases hm : node.type.hasNodeManager
  · rw [relaunchNode_of_not_manager env m hm]
    exact refl _
  · intro t i x hx
    rw [relaunchNode_jobNode env m hm]
    split_ifs with h₁ h₂
    · obtain ⟨rfl, rfl⟩ := h₁
      rw [hx] at h
      exact ⟨_, rfl, (Option.some.inj h).symm⟩
    · obtain ⟨rfl, rfl⟩ := h₂
      rw [JobNodes.jobNode_nextId] at hx
      cases hx
    · exact ⟨x, hx, rfl⟩

theorem processEvent (env : ManagerEnv) (e : NodeEvent) (m : DistributedJobManager) :
    HeartbeatKept m.jobNodes (DistJobManager.processEvent env e m).jobNodes :=
  processEvent_jobNodes env e m (refl _) (fun _ _ hc hk hb => write hc hk hb)
    fun _ _ _ h h₀ => relaunchNode h h₀

theorem foldl_processEvent (env : ManagerEnv) (l : List NodeEvent) (m : DistributedJobManager) :
    HeartbeatKept m.jobNodes (l.foldl (fun m e => DistJobManager.processEvent env e m) m).jobNodes := by
  induction l generalizing m with
  | nil => exact refl _
  | cons e l ih => exact (processEvent env e m).trans (ih _)

theorem handleTrainingFailure (t : NodeType) (i : Nat) (level : TrainingExceptionLevel) :
    HeartbeatKept m.jobNodes (DistJobManager.handleTrainingFailure env t i level m).jobNodes := by
  unfold DistJobManager.handleTrainingFailure
  split
  · exact refl _
  · next n hn =>
    obtain ⟨-, rfl, rfl⟩ := JobNodes.jobNode_some hn
    dsimp only
    split
    · exact relaunchNode (by simp [hn]) (refl _)
    · exact refl _

theorem stopLocked (env : ManagerEnv) (m : DistributedJobManager) :
    HeartbeatKept m.jobNodes (DistJobManager.stopLocked env m).1.jobNodes := by
  have h₁ := updateFiltered (m := m) (fun _ => true) stopNode (fun _ => rfl) (fun _ => rfl)
  simp only [List.filter_true] at h₁
  unfold DistJobManager.stopLocked
  dsimp only
  split
  · exact h₁
  · next workers hw =>
    obtain ⟨hst, hnd⟩ := JobNodes.stored_nodes (m.jobNodes.updateJobNodes (m.jobNodes.all.map stopNode))
      .worker
    simp only [JobNodes.nodes, hw, Option.getD_some] at hst hnd
    exact h₁.trans (updateJobNodes (m := { m with
        jobNodes := m.jobNodes.updateJobNodes (m.jobNodes.all.map stopNode) })
      (fun n => { n with evalTime := env.getWorkerEvalTime n.id }) id
      (fun _ => rfl) (fun _ => rfl) hst hnd)

theorem stop (env : ManagerEnv) (m : DistributedJobManager) :
    HeartbeatKept m.jobNodes (DistJobManager.stop env m).jobNodes := by
  unfold DistJobManager.stop
  split_ifs
  · exact refl _
  · have h := stopLocked env { m with enableRelaunchNode := false }
    split <;> simp_all

theorem clearExitedNodes (env : ManagerEnv) (m : DistributedJobManager) :
    HeartbeatKept m.jobNodes (DistJobManager.clearExitedNodes env m).jobNodes := by
  have h₁ := updateFiltered (m := m) (fun n => !n.isReleased && n.exited)
    (fun n => { n with isReleased := true }) (fun _ => rfl) (fun _ => rfl)
  simp only [DistJobManager.clearExitedNodes]
  split_ifs
  · exact refl _
  · exact h₁
  · exact h₁

theorem removeTrainingNodes (m : DistributedJobManager) :
    HeartbeatKept m.jobNodes (DistJobManager.removeTrainingNodes m).jobNodes := by
  unfold DistJobManager.removeTrainingNodes
  split
  · next workers pss hw hps =>
    have hst := stored_of_sublist ((List.filter_sublist (p := fun n =>
      (n.status = .running || n.status = .pending) && !n.isReleased) _).trans
        (JobNodes.workers_ps_sublist hw hps))
    exact updateJobNodes removedNode id (fun _ => rfl) (fun _ => rfl) hst.1 hst.2
  · exact refl _

theorem writeStored {t : NodeType} {i : Nat} (f : Node → Node) (hk : ∀ n, (f n).key = n.key)
    (hb : ∀ n, (f n).heartbeatTime = n.heartbeatTime) :
    HeartbeatKept m.jobNodes (match m.jobNodes.jobNode t i with
      | none => m
      | some n => m.write (f n)).jobNodes := by
  split
  · exact refl _
  · next n hn =>
    obtain ⟨-, rfl, rfl⟩ := JobNodes.jobNode_some hn
    exact write hn (hk n) (hb n)

theorem updateHangTime (t : NodeType) (i now : Nat) :
    HeartbeatKept m.jobNodes (DistJobManager.updateHangTime env t i now m).jobNodes := by
  unfold DistJobManager.updateHangTime
  split
  · exact refl _
  · next n hn =>
    obtain ⟨-, rfl, rfl⟩ := JobNodes.jobNode_some hn
    split
    · exact refl _
    · next n' hw =>
      obtain ⟨_, rfl⟩ := resourceUsageWrite_some hw
      exact write hn rfl rfl

theorem updateNodeResourceUsage (t : NodeType) (i : Nat) (cpu : ℚ) (memory : Nat)
    (gpuStats : List GPUStats) (now : Nat) :
    HeartbeatKept m.jobNodes
      (DistJobManager.updateNodeResourceUsage env t i cpu memory gpuStats now m).jobNodes := by
  unfold DistJobManager.updateNodeResourceUsage
  split
  · exact refl _
  · next n hn =>
    obtain ⟨-, rfl, rfl⟩ := JobNodes.jobNode_some hn
    have h₂ : HeartbeatKept (m.write (n.updateResourceUsage cpu memory gpuStats)).jobNodes
        (DistJobManager.updateHangTime env n.type n.id now
          (m.write (n.updateResourceUsage cpu memory gpuStats))).jobNodes :=
      updateHangTime n.type n.id now
    exact (write (n := n.updateResourceUsage cpu memory gpuStats) hn rfl rfl).trans h₂

theorem processReportedNodeEvent (e : NodeEvent) :
    HeartbeatKept m.jobNodes (DistJobManager.processReportedNodeEvent e m).jobNodes := by
  have h := writeStored (m := m) (t := e.node.type) (i := e.node.id)
    (fun n => { n with reportedStatus := some e.eventType }) (fun _ => rfl) (fun _ => rfl)
  unfold DistJobManager.processReportedNodeEvent
  split_ifs <;> split <;> simp_all

theorem listedNodeUpdate (node : Node) (m : DistributedJobManager) :
    HeartbeatKept m.jobNodes (DistJobManager.listedNodeUpdate node m).jobNodes := by
  have h₁ : HeartbeatKept m.jobNodes (if m.jobNodes.jobNode node.type node.id = none ∧
      node.status ≠ .deleted then m.write node else m).jobNodes := by
    split_ifs with h
    · exact write_new h.1
    · exact refl _
  unfold DistJobManager.listedNodeUpdate
  dsimp only
  generalize (if m.jobNodes.jobNode node.type node.id = none ∧ node.status ≠ .deleted then m.write node
      else m) = m₁ at h₁ ⊢
  split
  · next x hx =>
    obtain ⟨-, ht, hi⟩ := JobNodes.jobNode_some hx
    split_ifs
    · exact h₁.trans (write hx (by simp [Node.key, ht, hi]) rfl)
    · exact h₁
  · exact h₁

theorem processListNodes (nodes : List Node) :
    HeartbeatKept m.jobNodes (DistJobManager.processListNodes env nodes m).1.jobNodes :=
  processListNodes_induction (fun m' => HeartbeatKept m.jobNodes m'.jobNodes)
    (fun m' e h _ => h.trans (processEvent env e m'))
    (fun m' n _ h => (h.trans (listedNodeUpdate n m')).trans (processEvent env _ _)) m (refl _)

theorem exec (env : ManagerEnv) (m : DistributedJobManager) :
    ∀ op : Op, (∀ t i ts, op ≠ .collectNodeHeartBeat t i ts) →
      HeartbeatKept m.jobNodes (op.exec env m).jobNodes
  | .processEvent e, _ => processEvent env e m
  | .processNodeAction t i, _ => by
    show HeartbeatKept m.jobNodes (DistJobManager.processNodeAction env t i m).jobNodes
    unfold DistJobManager.processNodeAction
    split
    · exact refl _
    · exact processEvent env _ m
  | .monitorNodeHeartBeat now, _ => foldl_processEvent env _ (m.emit _)
  | .handleTrainingFailure t i level, _ => handleTrainingFailure t i level
  | .stop, _ => stop env m
  | .clearExitedNodes, _ => clearExitedNodes env m
  | .clearAllNodes, _ =>
    updateFiltered (fun n => !n.isReleased) (fun n => { n with isReleased := true }) (fun _ => rfl)
      (fun _ => rfl)
  | .removeTrainingNodes, _ => removeTrainingNodes m
  | .updateNodeResourceUsage t i cpu memory gpuStats now, _ =>
    updateNodeResourceUsage t i cpu memory gpuStats now
  | .updateNodeServiceAddr t i addr, _ =>
    writeStored (serviceAddrNode addr) (fun _ => rfl) (fun _ => rfl)
  | .updateNodeParalConfig t i config, _ =>
    writeStored (fun n => { n with paralConfig := some config }) (fun _ => rfl) (fun _ => rfl)
  | .collectNodeHeartBeat t i ts, h => (h t i ts rfl).elim
  | .processReportedNodeEvent e, _ => processReportedNodeEvent e
  | .processListNodes nodes, _ => processListNodes nodes

end HeartbeatKept

/-- Every node stored in `s'` has heartbeat 0 or that of the node `s` stores under its key. -/
def HeartbeatFrom (s s' : JobNodes) : Prop :=
  ∀ t i x, s'.jobNode t i = some x →
    x.heartbeatTime = 0 ∨ ∃ y, s.jobNode t i = some y ∧ x.heartbeatTime = y.heartbeatTime

namespace HeartbeatFrom

variable {s s₁ s₂ s₃ : JobNodes} {env : ManagerEnv} {m : DistributedJobManager}

theorem refl (s : JobNodes) : HeartbeatFrom s s := fun _ _ x h => .inr ⟨x, h, rfl⟩

theorem trans (h₁ : HeartbeatFrom s₁ s₂) (h₂ : HeartbeatFrom s₂ s₃) : HeartbeatFrom s₁ s₃ := by
  intro t i x h
  rcases h₂ t i x h with h₀ | ⟨y, hy, hb⟩
  · exact .inl h₀
  rcases h₁ t i y hy with h₀ | ⟨z, hz, hb'⟩
  · exact .inl (hb.trans h₀)
  · exact .inr ⟨z, hz, hb.trans hb'⟩

theorem write {t : NodeType} {i : Nat} {n₀ n : Node} (h : s.jobNode t i = some n₀)
    (hk : n.key = (t, i)) (hb : n.heartbeatTime = n₀.heartbeatTime) :
    HeartbeatFrom s (s.updateJobNode n) := by
  obtain ⟨ht, hi⟩ := Prod.mk.inj hk
  intro t' i' x hx
  rw [JobNodes.jobNode_updateJobNode] at hx
  split_ifs at hx with hti
  · obtain ⟨rfl, rfl⟩ := hti
    cases hx
    exact .inr ⟨n₀, by rw [ht, hi, h], hb⟩
  · exact .inr ⟨x, hx, rfl⟩

theorem relaunchNode {node : Node}
    (h : (m.jobNodes.jobNode node.type node.id).map Node.heartbeatTime = some node.heartbeatTime)
    (h₀ : HeartbeatFrom s m.jobNodes) :
    HeartbeatFrom s (DistJobManager.relaunchNode env node m).jobNodes := by
  refine h₀.trans ?_
  cases hm : node.type.hasNodeManager
  · rw [relaunchNode_of_not_manager env m hm]
    exact refl _
  · intro t i x hx
    rw [relaunchNode_jobNode env m hm] at hx
    split_ifs at hx with h₁ h₂
    · obtain ⟨rfl, rfl⟩ := h₁
      cases hx
      obtain ⟨y, hy, hb⟩ := Option.map_eq_some'.mp h
      exact .inr ⟨y, hy, hb.symm⟩
    · cases hx
      exact .inl rfl
    · exact .inr ⟨x, hx, rfl⟩

theorem processEvent (env : ManagerEnv) (e : NodeEvent) (m : DistributedJobManager) :
    HeartbeatFrom m.jobNodes (DistJobManager.processEvent env e m).jobNodes :=
  processEvent_jobNodes env e m (refl _) (fun _ _ hc hk hb => write hc hk hb)
    fun _ _ _ h h₀ => relaunchNode h h₀

theorem foldl_processEvent (env : ManagerEnv) (l : List NodeEvent) (m : DistributedJobManager) :
    HeartbeatFrom m.jobNodes (l.foldl (fun m e => DistJobManager.processEvent env e m) m).jobNodes := by
  induction l generalizing m with
  | nil => exact refl _
  | cons e l ih => exact (processEvent env e m).trans (ih _)

end HeartbeatFrom

theorem collectNodeHeartBeat_jobNode (t : NodeType) (i ts : Nat) (m : DistributedJobManager)
    (t' : NodeType) (i' : Nat) :
    (collectNodeHeartBeat t i ts m).jobNodes.jobNode t' i' =
      if t = t' ∧ i = i' then (m.jobNodes.jobNode t i).map fun n => { n with heartbeatTime := ts }
      else m.jobNodes.jobNode t' i' := by
  unfold collectNodeHeartBeat
  split
  · next hn => split_ifs with h <;> simp_all
  · next n hn =>
    obtain ⟨-, rfl, rfl⟩ := JobNodes.jobNode_some hn
    simp [JobNodes.jobNode_updateJobNode, hn]

/-- One call keeps every stored node; only a report for it changes its heartbeat. -/
theorem step_heartbeat (env : ManagerEnv) (m : DistributedJobManager) (op : Op) {t : NodeType}
    {i : Nat} {n : Node} (hn : m.jobNodes.jobNode t i = some n) :
    ∃ n', (step env m op).jobNodes.jobNode t i = some n' ∧
      (n'.heartbeatTime = n.heartbeatTime ∨
        ∃ ts, op = .collectNodeHeartBeat t i ts ∧ n'.heartbeatTime = ts) := by
  unfold step
  split_ifs
  · exact ⟨n, hn, .inl rfl⟩
  by_cases hr : ∃ t' i' ts, op = .collectNodeHeartBeat t' i' ts
  · obtain ⟨t', i', ts, rfl⟩ := hr
    simp only [Op.exec, collectNodeHeartBeat_jobNode]
    split_ifs with h
    · obtain ⟨rfl, rfl⟩ := h
      exact ⟨_, by rw [hn]; rfl, .inr ⟨ts, rfl, rfl⟩⟩
    · exact ⟨n, hn, .inl rfl⟩
  · obtain ⟨n', h, hb⟩ :=
      HeartbeatKept.exec env m op (fun t i ts h => hr ⟨t, i, ts, h⟩) t i n hn
    exact ⟨n', h, .inl hb⟩

/-- Along every run a node's heartbeat is its first one or the timestamp of a report for it. -/
theorem heartbeat_set_only_by_reports (env : ManagerEnv) (ops : List Op) (m : DistributedJobManager)
    {t : NodeType} {i : Nat} {n : Node} (hn : m.jobNodes.jobNode t i = some n) :
    ∃ n', (run env m ops).jobNodes.jobNode t i = some n' ∧
      (n'.heartbeatTime = n.heartbeatTime ∨
        ∃ ts, .collectNodeHeartBeat t i ts ∈ ops ∧ n'.heartbeatTime = ts) := by
  induction ops generalizing m n with
  | nil => exact ⟨n, hn, .inl rfl⟩
  | cons op ops ih =>
    obtain ⟨n₁, h₁, hb₁⟩ := step_heartbeat env m op hn
    obtain ⟨n', h', hb'⟩ := ih (step env m op) h₁
    refine ⟨n', h', ?_⟩
    rcases hb' with hb' | ⟨ts, hts, hb'⟩
    · rcases hb₁ with hb₁ | ⟨ts, rfl, hb₁⟩
      · exact .inl (hb'.trans hb₁)
      · exact .inr ⟨ts, .head _, hb'.trans hb₁⟩
    · exact .inr ⟨ts, .tail _ hts, hb'⟩

theorem heartbeat_set_only_by_reports_two_reports :
    (oneNodeJob runningWorker).jobNodes.jobNode .worker 0 = some runningWorker ∧
      ∃ n', (run goneEnv (oneNodeJob runningWorker)
          [.collectNodeHeartBeat .worker 0 100, .collectNodeHeartBeat .worker 0 50]).jobNodes.jobNode
          .worker 0 = some n' ∧
        (n'.heartbeatTime = runningWorker.heartbeatTime ∨
          ∃ ts, .collectNodeHeartBeat .worker 0 ts ∈
            [Op.collectNodeHeartBeat .worker 0 100, .collectNodeHeartBeat .worker 0 50] ∧
            n'.heartbeatTime = ts) :=
  ⟨by decide, heartbeat_set_only_by_reports goneEnv _ _ (by decide)⟩

/-- A late report lowers the heartbeat: 100, then 50, leaves 50. -/
theorem late_report_lowers_heartbeat :
    let m₁ := step goneEnv (oneNodeJob runningWorker) (.collectNodeHeartBeat .worker 0 100)
    (m₁.jobNodes.jobNode .worker 0).map Node.heartbeatTime = some 100 ∧
      ((step goneEnv m₁ (.collectNodeHeartBeat .worker 0 50)).jobNodes.jobNode .worker 0).map
        Node.heartbeatTime = some 50 := by
  decide

end DistJobManager
