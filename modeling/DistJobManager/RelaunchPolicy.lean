import DistJobManager.EventEffects
import DistJobManager.Invariants

/-! The two relaunch paths, `_process_event` through `_should_relaunch` and
`handle_training_failure` through `_process_error`, and the relaunch budgets along a run. -/

namespace DistJobManager

section

variable {env : ManagerEnv} {e : NodeEvent} {m : DistributedJobManager} {n : Node}

theorem relaunched_processEvent (h : n ∈ relaunchedNodes (sentBy m (processEvent env e m))) :
    ∃ cur f, eventLookup env e m = some cur ∧ e.eventType ≠ .exit ∧
      getNodeStateFlow cur.status e.eventType e.node.status = some f ∧ f.fromStatus ≠ .succeeded ∧
      (shouldRelaunch env m.jobStage m.enableRelaunchNode (lockedNode e (cur.updateInfo e.node)) f).1 ∧
      n = (shouldRelaunch env m.jobStage m.enableRelaunchNode (lockedNode e (cur.updateInfo e.node)) f).2.1 ∧
      n.type.hasNodeManager := by
  cases hl : eventLookup env e m with
  | none => simp [processEvent, hl, sentBy] at h
  | some cur =>
    by_cases hx : e.eventType = .exit
    · simp [processEvent_exit hl hx, closeJob, sentBy] at h
    by_cases hr : FlowRejected cur e
    · simp [processEvent_rejected hl hr, hx, sentBy] at h
    obtain ⟨f, hf, hs⟩ : ∃ f, getNodeStateFlow cur.status e.eventType e.node.status = some f ∧
        f.fromStatus ≠ .succeeded := by
      simpa [FlowRejected] using hr
    refine ⟨cur, f, rfl, hx, hf, hs, ?_⟩
    rw [processEvent_accepted hl hx hf hs] at h
    split at h
    · next h1 =>
      by_cases hm : (shouldRelaunch env m.jobStage m.enableRelaunchNode
          (lockedNode e (cur.updateInfo e.node)) f).2.1.type.hasNodeManager
      · rw [relaunchNode_of_manager _ _ hm] at h
        simp [sentBy] at h
        exact ⟨h1, h, h ▸ hm⟩
      · rw [relaunchNode_of_not_manager _ _ (by simpa using hm)] at h
        simp [sentBy] at h
    · simp [sentBy] at h

end

def BudgetsFrom (a b : Nat) (Re : Nat → Prop) (m : DistributedJobManager) : Prop :=
  ∀ t i n, m.jobNodes.jobNode t i = some n →
    n.maxRelaunchCount = a ∨ n.maxRelaunchCount = b ∨ Re n.maxRelaunchCount

theorem budgetsFrom_writePreserved (env : ManagerEnv) (a b : Nat) (Re : Nat → Prop) :
    WritePreserved env (fun n => Re n.maxRelaunchCount) (BudgetsFrom a b Re) where
  write m n₀ n hI hn he t i x hx := by
    rw [DistributedJobManager.write_jobNodes, JobNodes.jobNode_updateJobNode] at hx
    split_ifs at hx
    · cases hx
      rw [he.maxRelaunchCount_eq]
      exact hI _ _ _ hn
    · exact hI t i x hx
  emit _ _ hI _ := hI
  relaunch m n₀ n hI hn he _ hm t i x hx := by
    rw [relaunchNode_jobNode env m hm] at hx
    split_ifs at hx
    · cases hx
      simpa [he.maxRelaunchCount_eq] using hI _ _ _ hn
    · cases hx
      simpa [Node.relaunchedAs, he.maxRelaunchCount_eq] using hI _ _ _ hn
    · exact hI t i x hx
  flags _ _ hI hj _ _ t i x hx := hI t i x (hj ▸ hx)
  reAdd m n hI _ hRe t i x hx := by
    rw [DistributedJobManager.write_jobNodes, JobNodes.jobNode_updateJobNode] at hx
    split_ifs at hx
    · cases hx
      exact .inr (.inr hRe)
    · exact hI t i x hx

def CountsFrom (m₀ m : DistributedJobManager) : Prop :=
  ∀ t i n, m₀.jobNodes.jobNode t i = some n →
    ∃ n', m.jobNodes.jobNode t i = some n' ∧ n.relaunchCount ≤ n'.relaunchCount

theorem countsFrom_writePreserved (env : ManagerEnv) (m₀ : DistributedJobManager) :
    WritePreserved env (fun _ => True) (CountsFrom m₀) where
  write m n₀ n hI hn he t i x hx := by
    obtain ⟨y, hy, hle⟩ := hI t i x hx
    rw [DistributedJobManager.write_jobNodes, JobNodes.jobNode_updateJobNode]
    split_ifs with h
    · obtain ⟨rfl, rfl⟩ := h
      rw [hn] at hy
      cases hy
      exact ⟨_, rfl, hle.trans he.relaunchCount_le⟩
    · exact ⟨y, hy, hle⟩
  emit _ _ hI _ := hI
  relaunch m n₀ n hI hn he _ hm t i x hx := by
    obtain ⟨y, hy, hle⟩ := hI t i x hx
    rw [relaunchNode_jobNode env m hm]
    split_ifs with h₁ h₂
    · obtain ⟨rfl, rfl⟩ := h₁
      rw [hn] at hy
      cases hy
      exact ⟨_, rfl, hle.trans he.relaunchCount_le⟩
    · obtain ⟨rfl, rfl⟩ := h₂
      rw [JobNodes.jobNode_nextId] at hy
      cases hy
    · exact ⟨y, hy, hle⟩
  flags _ _ hI hj _ _ t i x hx := by simpa [hj] using hI t i x hx
  reAdd m n hI hn _ t i x hx := by
    obtain ⟨y, hy, hle⟩ := hI t i x hx
    rw [DistributedJobManager.write_jobNodes, JobNodes.jobNode_updateJobNode]
    split_ifs with h
    · obtain ⟨rfl, rfl⟩ := h
      rw [hn] at hy
      cases hy
    · exact ⟨y, hy, hle⟩

/-- From `start()`, budgets stay those of `__init__` or a listing, and counts never go down. -/
theorem relaunch_budgets_bounded (env : ManagerEnv) (args : JobArgs) (hasRunningWorkers : Bool)
    {m₀ : DistributedJobManager} (h : DistributedJobManager.start args hasRunningWorkers = some m₀)
    (ops ops' : List Op) :
    (∀ t i n, (run env m₀ ops).jobNodes.jobNode t i = some n →
      ((n.maxRelaunchCount = args.relaunchOnWorkerFailure ∨
        n.maxRelaunchCount = args.psRelaunchMaxNum) ∧ n.maxRelaunchCount ≤ maxPodRelaunchCount) ∨
      ∃ op ∈ ops, ∃ x ∈ op.listed, x.maxRelaunchCount = n.maxRelaunchCount) ∧
    ∀ t i n, (run env m₀ ops).jobNodes.jobNode t i = some n →
      ∃ n', (run env m₀ (ops ++ ops')).jobNodes.jobNode t i = some n' ∧
        n.relaunchCount ≤ n'.relaunchCount := by
  have h₀ : BudgetsFrom args.relaunchOnWorkerFailure args.psRelaunchMaxNum
      (fun k => ∃ op ∈ ops, ∃ x ∈ op.listed, x.maxRelaunchCount = k) m₀ := by
    unfold DistributedJobManager.start at h
    obtain ⟨c, -, rfl⟩ := Option.map_eq_some'.mp h
    exact fun t i n hn => (initJobNodes_budget args _ _ c hn).imp_right .inl
  refine ⟨fun t i n hn => ?_, fun t i n hn => ?_⟩
  · have hcap : ∀ k, k = args.relaunchOnWorkerFailure ∨ k = args.psRelaunchMaxNum →
        k ≤ maxPodRelaunchCount := by
      rintro k (rfl | rfl) <;> simp [JobArgs.relaunchOnWorkerFailure, JobArgs.psRelaunchMaxNum]
    rcases (budgetsFrom_writePreserved env _ _ _).run ops m₀
      (fun op hop x hx => ⟨op, hop, x, hx, rfl⟩) h₀ t i n hn with hb | hb | hb
    · exact .inl ⟨.inl hb, hcap _ (.inl hb)⟩
    · exact .inl ⟨.inr hb, hcap _ (.inr hb)⟩
    · exact .inr hb
  · rw [run_append]
    exact (countsFrom_writePreserved env _).run ops' _ (fun _ _ _ _ => trivial)
      (fun t i x hx => ⟨x, hx, le_rfl⟩) t i n hn

def killedWorkers : List Op :=
  (List.range 4).map fun k => .processEvent ⟨.modified,
    { type := .worker, id := k, status := .failed, exitReason := some .killed }⟩

theorem relaunch_budgets_bounded_killed_workers :
    ∃ m₀, DistributedJobManager.start oneWorkerArgs false = some m₀ ∧
      (∀ t i n, (run goneEnv m₀ killedWorkers).jobNodes.jobNode t i = some n →
        ((n.maxRelaunchCount = oneWorkerArgs.relaunchOnWorkerFailure ∨
          n.maxRelaunchCount = oneWorkerArgs.psRelaunchMaxNum) ∧
          n.maxRelaunchCount ≤ maxPodRelaunchCount) ∨
        ∃ op ∈ killedWorkers, ∃ x ∈ op.listed, x.maxRelaunchCount = n.maxRelaunchCount) ∧
      ∀ t i n, (run goneEnv m₀ killedWorkers).jobNodes.jobNode t i = some n →
        ∃ n', (run goneEnv m₀ (killedWorkers ++ killedWorkers)).jobNodes.jobNode t i = some n' ∧
          n.relaunchCount ≤ n'.relaunchCount := by
  obtain ⟨m₀, h⟩ : ∃ m₀, DistributedJobManager.start oneWorkerArgs false = some m₀ := ⟨_, rfl⟩
  exact ⟨m₀, h, relaunch_budgets_bounded goneEnv oneWorkerArgs false h killedWorkers killedWorkers⟩

/-- Killed exits skip the budget check and still count: four relaunches on a budget of three. -/
theorem killed_workers_exceed_budget :
    ∃ m₀, DistributedJobManager.start oneWorkerArgs false = some m₀ ∧
      ((run goneEnv m₀ killedWorkers).jobNodes.jobNode .worker 3).map
        (fun n => (n.relaunchCount, n.maxRelaunchCount)) = some (4, 3) := by
  refine ⟨(DistributedJobManager.start oneWorkerArgs false).get rfl, (Option.some_get _).symm, ?_⟩
  -- the fourth worker of the chain, as the first three relaunches leave it, and its killed exit
  let e : NodeEvent := ⟨.modified, { type := .worker, id := 3, status := .failed, exitReason := some .killed }⟩
  let w : Node := { type := .worker, id := 3, relaunchCount := 3, maxRelaunchCount := 3 }
  generalize hm : run goneEnv ((DistributedJobManager.start oneWorkerArgs false).get rfl)
    (killedWorkers.take 3) = m
  have hl : eventLookup goneEnv e m = some w := by rw [← hm]; decide
  have hf : getNodeStateFlow w.status e.eventType e.node.status = some ⟨.initial, .failed, true⟩ := by decide
  have hs : m.exited = false ∧ m.jobStage = .jobInit ∧ m.enableRelaunchNode = true := by rw [← hm]; decide
  rw [show killedWorkers = killedWorkers.take 3 ++ [.processEvent e] from rfl, run_append, hm, run_cons]
  simp only [run, List.foldl_nil, step, hs.1, Bool.false_eq_true, if_false, Op.exec]
  rw [processEvent_jobNode_self hl (by decide) hf (by decide), hs.2.1, hs.2.2]
  decide

/-- The rest of `_process_event` when `self._scaler.scale(plan)` raises in `_relaunch_node`. -/
def eventAfterLockUntilScale (env : ManagerEnv) (t : EventTransition) (m : DistributedJobManager) :
    DistributedJobManager :=
  match m.jobNodes.jobNode t.type t.id with
  | none => m
  | some node => (relaunchNodeUntilScale env node (m.emit [.statusChange node t.oldStatus t.newStatus])).1

theorem shouldRelaunch_isRecoveredOom (env : ManagerEnv) (stage : JobStage) (enable : Bool)
    (node : Node) (flow : NodeStateFlow) :
    (shouldRelaunch env stage enable node flow).2.1.isRecoveredOom = node.isRecoveredOom ∨
      (shouldRelaunch env stage enable node flow).2.1.isRecoveredOom = true := by
  unfold shouldRelaunch
  split
  · next oom _ => cases oom <;> simp
  · exact .inl rfl

/-- A relaunch decided under the lock that fails in `_relaunch_node`: what is left stored. -/
theorem relaunch_failure_state (env : ManagerEnv) (e : NodeEvent) (cur : Node)
    (m m₁ : DistributedJobManager) (tr : EventTransition)
    (hcur : m.jobNodes.jobNode e.node.type e.node.id = some cur)
    (ht : eventTransition env e m = (m₁, some tr)) (hr : tr.shouldRelaunch = true) :
    ∃ x, m₁.jobNodes.jobNode e.node.type e.node.id = some x ∧
      x.relaunchCount = cur.relaunchCount + 1 ∧ x.relaunchable = cur.relaunchable ∧
      (x.isRecoveredOom = cur.isRecoveredOom ∨ x.isRecoveredOom = true) ∧
      m.jobNodes.KeysIn m₁.jobNodes ∧ m₁.jobNodes.KeysIn m.jobNodes ∧
      (x.type.hasNodeManager = false → (eventAfterLockUntilScale env tr m₁).jobNodes = m₁.jobNodes) ∧
      (x.type.hasNodeManager = true →
        (eventAfterLockUntilScale env tr m₁).jobNodes.jobNode e.node.type e.node.id =
          some { x with relaunchable := false } ∧
        m₁.jobNodes.jobNode e.node.type (m₁.jobNodes.nextId e.node.type) = none ∧
        ((eventAfterLockUntilScale env tr m₁).jobNodes.jobNode e.node.type
          (m₁.jobNodes.nextId e.node.type)).isSome) := by
  obtain ⟨-, ht₀, hi₀⟩ := JobNodes.jobNode_some hcur
  by_cases hrj : FlowRejected cur e
  · rw [eventTransition_rejected hcur hrj] at ht
    cases ht
  obtain ⟨f, hf, hs⟩ := not_flowRejected hrj
  rw [eventTransition_accepted hcur hf hs, Prod.mk.injEq, Option.some.injEq] at ht
  obtain ⟨rfl, rfl⟩ := ht
  simp only at hr
  have hx : (m.jobNodes.updateJobNode (shouldRelaunch env m.jobStage m.enableRelaunchNode
      (lockedNode e cur) f).2.1).jobNode e.node.type e.node.id =
      some (shouldRelaunch env m.jobStage m.enableRelaunchNode (lockedNode e cur) f).2.1 := by
    simp [JobNodes.jobNode_updateJobNode, ht₀, hi₀]
  refine ⟨_, hx, ?_, by simp [lockedNode], ?_, JobNodes.KeysIn.updateJobNode _, ?_, ?_, ?_⟩
  · rw [shouldRelaunch_relaunchCount, if_pos hr]
    rfl
  · exact shouldRelaunch_isRecoveredOom env _ _ _ f
  · intro t i hti
    rw [JobNodes.jobNode_updateJobNode] at hti
    split_ifs at hti with h
    · obtain ⟨rfl, rfl⟩ := h
      simp [ht₀, hi₀, hcur]
    · exact hti
  · intro hm
    have hm' : cur.type.hasNodeManager = false := by simpa using hm
    simp only [eventAfterLockUntilScale, hx]
    simp [relaunchNodeUntilScale, hm']
  · intro hm
    simp only [eventAfterLockUntilScale, hx]
    rw [relaunchNodeUntilScale_jobNodes, relaunchNode_jobNode env _ hm,
      relaunchNode_jobNode env _ hm]
    have hfree := JobNodes.jobNode_nextId (m.jobNodes.updateJobNode
      (shouldRelaunch env m.jobStage m.enableRelaunchNode (lockedNode e cur) f).2.1) e.node.type
    have hne : e.node.id ≠ (m.jobNodes.updateJobNode (shouldRelaunch env m.jobStage
        m.enableRelaunchNode (lockedNode e cur) f).2.1).nextId e.node.type := by
      intro h
      rw [← h, hx] at hfree
      cases hfree
    simp [ht₀, hi₀, hne, hfree]

theorem relaunch_failure_state_failed_worker :
    let e : NodeEvent := ⟨.modified, { type := .worker, id := 0, status := .failed }⟩
    let cur := runningWorker.updateInfo e.node
    let m := (oneNodeJob runningWorker).write cur
    let m₁ := (eventTransition goneEnv e m).1
    let tr : EventTransition := ⟨.worker, 0, .running, .failed, true⟩
    m.jobNodes.jobNode e.node.type e.node.id = some cur ∧
      eventTransition goneEnv e m = (m₁, some tr) ∧ tr.shouldRelaunch = true ∧
      ∃ x, m₁.jobNodes.jobNode e.node.type e.node.id = some x ∧
        x.relaunchCount = cur.relaunchCount + 1 ∧ x.relaunchable = cur.relaunchable ∧
        (x.isRecoveredOom = cur.isRecoveredOom ∨ x.isRecoveredOom = true) ∧
        m.jobNodes.KeysIn m₁.jobNodes ∧ m₁.jobNodes.KeysIn m.jobNodes ∧
        (x.type.hasNodeManager = false →
          (eventAfterLockUntilScale goneEnv tr m₁).jobNodes = m₁.jobNodes) ∧
        (x.type.hasNodeManager = true →
          (eventAfterLockUntilScale goneEnv tr m₁).jobNodes.jobNode e.node.type e.node.id =
            some { x with relaunchable := false } ∧
          m₁.jobNodes.jobNode e.node.type (m₁.jobNodes.nextId e.node.type) = none ∧
          ((eventAfterLockUntilScale goneEnv tr m₁).jobNodes.jobNode e.node.type
            (m₁.jobNodes.nextId e.node.type)).isSome) := by
  intro e cur m m₁ tr
  have hcur : m.jobNodes.jobNode e.node.type e.node.id = some cur := by decide
  have ht : eventTransition goneEnv e m = (m₁, some tr) := Prod.ext rfl (by decide)
  exact ⟨hcur, ht, rfl, relaunch_failure_state goneEnv e cur m m₁ tr hcur ht rfl⟩

theorem scale_failure_keeps_relaunch :
    let e : NodeEvent := ⟨.modified, { type := .worker, id := 0, status := .failed }⟩
    let m := (oneNodeJob runningWorker).write (runningWorker.updateInfo e.node)
    let r := eventTransition goneEnv e m
    let tr : EventTransition := ⟨.worker, 0, .running, .failed, true⟩
    r.2 = some tr ∧ (m.jobNodes.jobNode .worker 0).map Node.relaunchCount = some 0 ∧
      ((eventAfterLockUntilScale goneEnv tr r.1).jobNodes.jobNode .worker 0).map
        (fun n => (n.relaunchCount, n.relaunchable)) = some (1, false) ∧
      ((eventAfterLockUntilScale goneEnv tr r.1).jobNodes.jobNode .worker 1).isSome := by
  decide

end DistJobManager
