import DistJobManager.Reconcile
import DistJobManager.JobStage

/-! The relaunches of the failures the manager forces, `NO_HEARTBEAT` from the heartbeat monitor and
`DIAG_FAIL` from diagnosis actions: both pass the deletion filter and skip three rows of the table. -/

namespace DistJobManager

section Decision

variable (env : ManagerEnv) (stage : JobStage) (enable : Bool) (node : Node) (flow : NodeStateFlow)

theorem relaunchDecision_positiveExit (hr : isPositiveExit node.exitReason = true)
    (hf : flow.shouldRelaunch = true) :
    relaunchDecision env stage enable node flow =
      if !(enable && node.relaunchable) then .refuse ""
      else if stage = .jobStopping then .refuse "Disable relaunch when job is stopping"
      else if node.maxRelaunchCount ≤ node.relaunchCount then
        .refuse (toString node.relaunchCount ++ " exhausted " ++ toString node.maxRelaunchCount)
      else .relaunch false := by
  unfold relaunchDecision
  rcases hx : node.exitReason with _ | r
  · simp [hx, isPositiveExit] at hr
  · cases r <;> simp [hx, hf, isPositiveExit] at hr ⊢

/-- On a forced failure only the switch, the flag, the stage and the budget decide a relaunch. -/
theorem shouldRelaunch_positiveExit (hr : isPositiveExit node.exitReason = true)
    (hf : flow.shouldRelaunch = true) :
    let c := enable = true ∧ node.relaunchable = true ∧ stage ≠ .jobStopping ∧
      node.relaunchCount < node.maxRelaunchCount
    (shouldRelaunch env stage enable node flow).1 = decide c ∧
      (shouldRelaunch env stage enable node flow).2.1 =
        if c then { node with relaunchCount := node.relaunchCount + 1 } else node := by
  intro c
  unfold shouldRelaunch
  rw [relaunchDecision_positiveExit env stage enable node flow hr hf]
  by_cases hc : c
  · rw [decide_eq_true hc, if_pos hc]
    obtain ⟨he, hrel, h₂, h₃⟩ := hc
    rw [if_neg (by simp [he, hrel]), if_neg h₂, if_neg (Nat.not_le_of_lt h₃)]
    exact ⟨rfl, rfl⟩
  rw [decide_eq_false hc, if_neg hc]
  by_cases h₁ : (!(enable && node.relaunchable)) = true
  · rw [if_pos h₁]
    exact ⟨rfl, rfl⟩
  by_cases h₂ : stage = .jobStopping
  · rw [if_neg h₁, if_pos h₂]
    exact ⟨rfl, rfl⟩
  have h₁' : enable = true ∧ node.relaunchable = true := by simpa using h₁
  rw [if_neg h₁, if_neg h₂, if_pos (Nat.le_of_not_lt fun h₃ => hc ⟨h₁'.1, h₁'.2, h₂, h₃⟩)]
  exact ⟨rfl, rfl⟩

end Decision

section Event

variable (env : ManagerEnv) {m : DistributedJobManager} {n : Node} {r : NodeExitReason}

theorem getNodeStateFlow_forcedFailure (hs : n.status = .initial ∨ n.status = .pending ∨ n.status = .running) :
    getNodeStateFlow n.status .deleted .failed = some ⟨n.status, .failed, true⟩ := by
  rcases hs with h | h | h <;> rw [h] <;> rfl

theorem relaunchedNodes_processEvent_forcedFailure (hr : isPositiveExit (some r) = true)
    (hn : m.jobNodes.jobNode n.type n.id = some n) :
    relaunchedNodes (processEvent env ⟨.deleted, { n with status := .failed, exitReason := some r }⟩ m).outputs =
      relaunchedNodes m.outputs ++
        if (n.status = .initial ∨ n.status = .pending ∨ n.status = .running) ∧
            m.enableRelaunchNode = true ∧ n.relaunchable = true ∧ m.jobStage ≠ .jobStopping ∧
            n.relaunchCount < n.maxRelaunchCount ∧ n.type.hasNodeManager = true
        then [{ n with status := .failed, exitReason := some r, relaunchCount := n.relaunchCount + 1 }]
        else [] := by
  have hl : eventLookup env ⟨.deleted, { n with status := .failed, exitReason := some r }⟩ m = some n := by
    simpa [eventLookup, skipDeletedEvent, hr] using hn
  by_cases hs : n.status = .initial ∨ n.status = .pending ∨ n.status = .running
  swap
  · rw [processEvent_rejected hl (flowRejected_forcedFailure.mpr hs)]
    simp [hs]
  have hlocked : lockedNode ⟨.deleted, { n with status := .failed, exitReason := some r }⟩
      (n.updateInfo { n with status := .failed, exitReason := some r }) =
      { n with status := .failed, exitReason := some r } := by
    simp [lockedNode, Node.updateInfo]
  obtain ⟨h₁, h₂⟩ := shouldRelaunch_positiveExit env m.jobStage m.enableRelaunchNode
    { n with status := .failed, exitReason := some r } ⟨n.status, .failed, true⟩ hr rfl
  rw [processEvent_accepted hl (by simp) (getNodeStateFlow_forcedFailure hs)
    (by rcases hs with h | h | h <;> simp [h])]
  dsimp only
  rw [hlocked, h₂, h₁]
  by_cases hc : m.enableRelaunchNode = true ∧ n.relaunchable = true ∧ m.jobStage ≠ .jobStopping ∧
      n.relaunchCount < n.maxRelaunchCount
  · by_cases hm : n.type.hasNodeManager = true
    · simp [hc, hm, relaunchNode_of_manager, hs]
    · simp [hc, hm, relaunchNode_of_not_manager]
  · simp only [decide_eq_false hc, Bool.false_eq_true, if_false]
    split_ifs with h
    · exact absurd ⟨h.2.1, h.2.2.1, h.2.2.2.1, h.2.2.2.2.1⟩ hc
    · simp

theorem relaunchedNodes_foldl_forcedFailure (hr : isPositiveExit (some r) = true) (l : List Node) :
    ∀ m : DistributedJobManager, (∀ x ∈ l, m.jobNodes.jobNode x.type x.id = some x) →
      (l.map Node.key).Nodup →
      relaunchedNodes ((l.map fun x => (⟨.deleted, { x with status := .failed, exitReason := some r }⟩ :
          NodeEvent)).foldl (fun m e => processEvent env e m) m).outputs =
        relaunchedNodes m.outputs ++
          ((l.filter fun x => decide ((x.status = .initial ∨ x.status = .pending ∨ x.status = .running) ∧
              m.enableRelaunchNode = true ∧ x.relaunchable = true ∧ m.jobStage ≠ .jobStopping ∧
              x.relaunchCount < x.maxRelaunchCount ∧ x.type.hasNodeManager = true)).map fun x =>
            { x with status := .failed, exitReason := some r, relaunchCount := x.relaunchCount + 1 }) := by
  induction l with
  | nil => simp
  | cons x l ih =>
    intro m hst hnd
    rw [List.map_cons, List.nodup_cons] at hnd
    have hkept := (Framed.processEvent env
      ⟨.deleted, { x with status := .failed, exitReason := some r }⟩ m).othersKept
    have hst' : ∀ y ∈ l, (processEvent env ⟨.deleted, { x with status := .failed, exitReason := some r }⟩
        m).jobNodes.jobNode y.type y.id = some y := fun y hy =>
      hkept _ _ _ (fun h => hnd.1 (List.mem_map.mpr ⟨y, hy, h⟩)) (hst y (.tail _ hy))
    rw [List.map_cons, List.foldl_cons, ih _ hst' hnd.2,
      relaunchedNodes_processEvent_forcedFailure env hr (hst x (.head _))]
    simp only [processEvent_enableRelaunchNode, processEvent_jobStage, List.filter_cons]
    split_ifs with h₁ h₂ h₂
    · simp
    · exact absurd (decide_eq_true h₁) h₂
    · exact absurd (of_decide_eq_true h₂) h₁
    · simp

end Event

theorem monitorNodeHeartBeat_relaunches (env : ManagerEnv) (now : Nat) (m : DistributedJobManager) :
    relaunchedNodes (monitorNodeHeartBeat env now m).outputs =
      relaunchedNodes m.outputs ++
        (((m.jobNodes.all.filter fun n => n.heartbeatExpired now 600 && n.heartbeatAfterStart).filter
          fun n => decide (m.enableRelaunchNode = true ∧ n.relaunchable = true ∧
            m.jobStage ≠ .jobStopping ∧ n.relaunchCount < n.maxRelaunchCount ∧
            n.type.hasNodeManager = true)).map fun n =>
          { n with status := .failed, exitReason := some .noHeartbeat, relaunchCount := n.relaunchCount + 1 }) := by
  have hdead := stored_of_sublist (List.filter_sublist
    (p := fun n => n.heartbeatExpired now 600 && n.heartbeatAfterStart) m.jobNodes.all)
  have hout : relaunchedNodes (getDeadNodeEvent env now 600 m.jobNodes).2 = [] :=
    relaunchedNodes_getDeadNodeEvent now 600 _
  simp only [getDeadNodeEvent] at hout
  simp only [monitorNodeHeartBeat, getDeadNodeEvent]
  rw [relaunchedNodes_foldl_forcedFailure env (r := .noHeartbeat) rfl _ (m.emit _) hdead.1 hdead.2,
    DistributedJobManager.emit_outputs, relaunchedNodes_append, hout, List.append_nil]
  congr 2
  refine List.filter_congr fun x hx => ?_
  have hrun : x.status = .running := by
    simp only [List.mem_filter, Node.heartbeatExpired, Bool.and_eq_true, decide_eq_true_eq] at hx
    exact hx.2.1.1.2
  simp [hrun]

theorem processNodeAction_relaunches (env : ManagerEnv) (t : NodeType) (i : Nat) (m : DistributedJobManager) :
    relaunchedNodes (processNodeAction env t i m).outputs =
      relaunchedNodes m.outputs ++
        (((m.jobNodes.jobNode t i).toList.filter fun n =>
          decide ((n.status = .initial ∨ n.status = .pending ∨ n.status = .running) ∧
            m.enableRelaunchNode = true ∧ n.relaunchable = true ∧ m.jobStage ≠ .jobStopping ∧
            n.relaunchCount < n.maxRelaunchCount ∧ n.type.hasNodeManager = true)).map fun n =>
          { n with status := .failed, exitReason := some .diagFail, relaunchCount := n.relaunchCount + 1 }) := by
  unfold processNodeAction
  split
  · next hn => simp [hn]
  · next n hn =>
    obtain ⟨-, rfl, rfl⟩ := JobNodes.jobNode_some hn
    rw [hn, Option.toList_some]
    exact relaunchedNodes_foldl_forcedFailure env (r := .diagFail) rfl [n] m (by simpa using hn) (by simp)

/-- No node is found dead by two consecutive heartbeat scans. -/
theorem monitorNodeHeartBeat_no_repeated_deaths (env : ManagerEnv) (now now' : Nat)
    (m : DistributedJobManager) :
    ∀ n ∈ (monitorNodeHeartBeat env now m).jobNodes.all,
      (n.heartbeatExpired now' 600 && n.heartbeatAfterStart) = true →
        n ∈ m.jobNodes.all ∧ (n.heartbeatExpired now 600 && n.heartbeatAfterStart) = false := by
  intro x hx hdead
  have hst := JobNodes.jobNode_of_mem (JobNodes.mem_all.mp hx)
  have hfrom : HeartbeatFrom m.jobNodes (monitorNodeHeartBeat env now m).jobNodes :=
    HeartbeatFrom.foldl_processEvent env _ (m.emit _)
  simp only [Node.heartbeatExpired, Bool.and_eq_true, decide_eq_true_eq] at hdead
  obtain ⟨y, hy, -⟩ : ∃ y, m.jobNodes.jobNode x.type x.id = some y ∧ x.heartbeatTime = y.heartbeatTime := by
    rcases hfrom x.type x.id x hst with h₀ | h
    · have := hdead.1.1.1.1.1.1
      omega
    · exact h
  obtain ⟨hy₀, hyt, hyi⟩ := JobNodes.jobNode_some hy
  have hym : y ∈ m.jobNodes.all := JobNodes.mem_all.mpr (hyt ▸ hy₀)
  have hy' : m.jobNodes.jobNode y.type y.id = some y := by rw [hyt, hyi]; exact hy
  have hdl := stored_of_sublist (List.filter_sublist
    (p := fun n => n.heartbeatExpired now 600 && n.heartbeatAfterStart) m.jobNodes.all)
  obtain ⟨hf, hout⟩ := foldl_forcedFailures env (r := .noHeartbeat) rfl _ (m.emit _) hdl.1 hdl.2
  rw [monitorNodeHeartBeat_eq] at hst
  by_cases hd : (y.heartbeatExpired now 600 && y.heartbeatAfterStart) = true
  · obtain ⟨x', hx', hfail⟩ := hout y (List.mem_filter.mpr ⟨hym, hd⟩)
    have hrun : y.status = .running := by
      simp only [Node.heartbeatExpired, Bool.and_eq_true, decide_eq_true_eq] at hd
      exact hd.1.1.2
    rw [if_pos (.inr (.inr hrun)), Prod.mk.injEq] at hfail
    rw [hyt, hyi, hst] at hx'
    cases hx'
    simp [hfail.1] at hdead
  · have hkeep := hf.stored (fun hk => hd (List.mem_filter.mp (mem_of_key_mem hdl.1 hy' hk)).2) hy'
    rw [hyt, hyi, hst] at hkeep
    cases hkeep
    exact ⟨hym, by simpa using hd⟩

theorem monitorNodeHeartBeat_no_repeated_deaths_late_worker :
    let w₀ : Node := { runningWorker with startTime := some 10, createTime := some 10, heartbeatTime := 100 }
    let w₁ : Node := { w₀ with id := 1, heartbeatTime := 500 }
    let m : DistributedJobManager :=
      { oneNodeJob w₀ with jobNodes := (oneNodeJob w₀).jobNodes.updateJobNode w₁ }
    w₁ ∈ (monitorNodeHeartBeat goneEnv 1000 m).jobNodes.all ∧
      (w₁.heartbeatExpired 1200 600 && w₁.heartbeatAfterStart) = true ∧
      w₁ ∈ m.jobNodes.all ∧ (w₁.heartbeatExpired 1000 600 && w₁.heartbeatAfterStart) = false := by
  intro w₀ w₁ m
  have h₁ : w₁ ∈ (monitorNodeHeartBeat goneEnv 1000 m).jobNodes.all := by decide
  have h₂ : (w₁.heartbeatExpired 1200 600 && w₁.heartbeatAfterStart) = true := by decide
  exact ⟨h₁, h₂, monitorNodeHeartBeat_no_repeated_deaths goneEnv 1000 1200 m w₁ h₁ h₂⟩

end DistJobManager
