import DistJobManager.Launches

/-! `stop()` under concurrent calls. Once relaunching is off, each relaunch is of a key that
held a relaunchable node or no node, or that a call in flight was about to relaunch. -/

namespace DistJobManager

/-- The key a call in flight relaunches without reading a relaunchable node. -/
def Thread.RelaunchAt (k : NodeType × Nat) : Thread → Prop
  | .afterLock t => t.shouldRelaunch = true ∧ (t.type, t.id) = k
  | .relaunchNode t i => (t, i) = k
  | .seq inner next => Thread.RelaunchAt k inner ∨ Thread.RelaunchAt k next
  | _ => False

def Sys.RelaunchSource (s : Sys) (k : NodeType × Nat) : Prop :=
  (∃ x, s.manager.jobNodes.jobNode k.1 k.2 = some x ∧ x.relaunchable = true) ∨
    s.manager.jobNodes.jobNode k.1 k.2 = none ∨ ∃ th ∈ s.threads, th.RelaunchAt k

/-- Relaunching is off, no key outside `Src` holds a relaunchable node or is relaunched after `R`. -/
structure RelaunchesFrom (Src : NodeType × Nat → Prop) (R : List Node) (m : DistributedJobManager) :
    Prop where
  disabled : m.enableRelaunchNode = false
  blocked : ∀ t i, ¬Src (t, i) → ∃ n, m.jobNodes.jobNode t i = some n ∧ n.relaunchable = false
  reports : ∃ new, relaunchedNodes m.outputs = R ++ new ∧ ∀ n ∈ new, Src n.key

namespace RelaunchesFrom

variable {Src : NodeType × Nat → Prop} {R : List Node} {m : DistributedJobManager}

theorem src_of_relaunchable (h : RelaunchesFrom Src R m) {t : NodeType} {i : Nat} {n : Node}
    (hn : m.jobNodes.jobNode t i = some n) (hr : n.relaunchable = true) : Src (t, i) := by
  by_contra hs
  obtain ⟨x, hx, hxr⟩ := h.blocked t i hs
  rw [hn, Option.some.injEq] at hx
  rw [hx, hxr] at hr
  cases hr

theorem write (h : RelaunchesFrom Src R m) {n : Node}
    (hn : n.relaunchable = true → ∀ n₀, m.jobNodes.jobNode n.type n.id = some n₀ → n₀.relaunchable = true) :
    RelaunchesFrom Src R (m.write n) := by
  refine ⟨h.disabled, fun t i hs => ?_, h.reports⟩
  obtain ⟨x, hx, hxr⟩ := h.blocked t i hs
  rw [DistributedJobManager.write_jobNodes, JobNodes.jobNode_updateJobNode]
  split_ifs with hk
  · refine ⟨n, rfl, Bool.eq_false_iff.mpr fun hr => ?_⟩
    obtain ⟨rfl, rfl⟩ := hk
    rw [hn hr x hx] at hxr
    cases hxr
  · exact ⟨x, hx, hxr⟩

theorem emit (h : RelaunchesFrom Src R m) {o : List Output} (ho : ∀ n ∈ relaunchedNodes o, Src n.key) :
    RelaunchesFrom Src R (m.emit o) := by
  obtain ⟨new, hnew, hsrc⟩ := h.reports
  refine ⟨h.disabled, h.blocked, new ++ relaunchedNodes o, by simp [hnew], fun n hn => ?_⟩
  rcases List.mem_append.mp hn with hn | hn
  exacts [hsrc n hn, ho n hn]

theorem flags (h : RelaunchesFrom Src R m) {m' : DistributedJobManager} (hj : m'.jobNodes = m.jobNodes)
    (ho : m'.outputs = m.outputs) (he : m'.enableRelaunchNode = true → m.enableRelaunchNode = true) :
    RelaunchesFrom Src R m' where
  disabled := Bool.eq_false_iff.mpr fun h' => by simpa [h.disabled] using he h'
  blocked := by rw [hj]; exact h.blocked
  reports := by rw [ho]; exact h.reports

theorem relaunchNode (h : RelaunchesFrom Src R m) (env : ManagerEnv) {node : Node} (hs : Src node.key) :
    RelaunchesFrom Src R (DistJobManager.relaunchNode env node m) := by
  cases hm : node.type.hasNodeManager
  · rwa [relaunchNode_of_not_manager env m hm]
  · rw [relaunchNode_of_manager env m hm]
    have h₁ := h.write (n := ({ node with relaunchable := false } : Node).relaunchedAs
      (m.jobNodes.nextId node.type)) fun _ n₀ hn₀ => by
        simp [Node.relaunchedAs, JobNodes.jobNode_nextId] at hn₀
    exact (h₁.write (n := { node with relaunchable := false }) fun hr => by simp at hr).emit
      (by simpa using hs)

theorem writePreserved (env : ManagerEnv) : WritePreserved env (fun _ => True) (RelaunchesFrom Src R) where
  write _ _ _ h hn he := h.write fun hr _ hn₁ => by
    rw [hn, Option.some.injEq] at hn₁
    exact hn₁ ▸ he.relaunchable_imp hr
  emit _ _ h ho := h.emit (by simp [ho])
  relaunch _ _ _ h hn _ hr _ := h.relaunchNode env (h.src_of_relaunchable hn hr)
  flags _ _ h hj ho he := h.flags hj ho he
  reAdd _ _ h hn _ := h.write fun _ _ hn₀ => by rw [hn] at hn₀; cases hn₀

theorem eventTransition (h : RelaunchesFrom Src R m) (env : ManagerEnv) (e : NodeEvent) :
    RelaunchesFrom Src R (DistJobManager.eventTransition env e m).1 ∧
      ∀ t, (DistJobManager.eventTransition env e m).2 = some t → t.shouldRelaunch = false := by
  cases hcur : m.jobNodes.jobNode e.node.type e.node.id with
  | none => simp [DistJobManager.eventTransition, hcur, h]
  | some cur =>
    by_cases hr : FlowRejected cur e
    · simp [eventTransition_rejected hcur hr, h]
    obtain ⟨f, hf, hs⟩ := not_flowRejected hr
    obtain ⟨-, ht, hi⟩ := JobNodes.jobNode_some hcur
    have hno : (shouldRelaunch env m.jobStage m.enableRelaunchNode (lockedNode e cur) f).1 = false :=
      Bool.eq_false_iff.mpr fun h' => by
        simpa [h.disabled] using (relaunchDecision_guard (shouldRelaunch_fst.mp h').choose_spec).2.1
    have hw := h.write (n := (shouldRelaunch env m.jobStage m.enableRelaunchNode (lockedNode e cur) f).2.1)
      fun hrl n₀ hn₀ => by
        simp only [shouldRelaunch_type, shouldRelaunch_id, lockedNode_type, lockedNode_id, ht, hi, hcur,
          Option.some.injEq] at hn₀
        simpa [← hn₀, lockedNode] using hrl
    rw [eventTransition_accepted hcur hf hs]
    exact ⟨((hw.emit (by simp)).emit (by simp)).flags rfl rfl id, fun t ht' => by
      cases ht'
      exact hno⟩

theorem eventAfterLock (h : RelaunchesFrom Src R m) (env : ManagerEnv) {t : EventTransition}
    (ht : t.shouldRelaunch = true → Src (t.type, t.id)) :
    RelaunchesFrom Src R (DistJobManager.eventAfterLock env t m) := by
  unfold DistJobManager.eventAfterLock
  split
  · exact h
  · next n hn =>
    have h₁ := h.emit (o := [.statusChange n t.oldStatus t.newStatus]) (by simp)
    split_ifs with hs
    · obtain ⟨-, hty, hid⟩ := JobNodes.jobNode_some hn
      exact h₁.relaunchNode env (by rw [Node.key, hty, hid]; exact ht hs)
    · exact h₁

end RelaunchesFrom

section Steps

variable {Src : NodeType × Nat → Prop} {R : List Node} (env : ManagerEnv)

theorem Thread.step_relaunchesFrom (th : Thread) {m : DistributedJobManager}
    (hth : ∀ k, th.RelaunchAt k → Src k) (h : RelaunchesFrom Src R m) :
    RelaunchesFrom Src R (th.step env m).1 ∧
      ∀ th', (th.step env m).2 = some th' → ∀ k, th'.RelaunchAt k → Src k := by
  have hP : Preserved env (fun _ => True) (fun _ => True) (RelaunchesFrom Src R) :=
    (RelaunchesFrom.writePreserved env).preserved
  induction th generalizing m with
  | processEvent e =>
    simp only [Thread.step]
    split
    · exact ⟨h, nofun⟩
    · next cur hl =>
      have hw : RelaunchesFrom Src R (m.write (cur.updateInfo e.node)) :=
        hP.writeAt (eventLookup_some hl).2 ⟨rfl, rfl, id, le_max_left _ _⟩ rfl h
      split_ifs
      · exact ⟨hP.closeJob hw, nofun⟩
      · exact ⟨hw, by rintro _ ⟨⟩ _ ⟨⟩⟩
  | transitionNode e =>
    have h₁ := h.eventTransition env e
    rcases ht : DistJobManager.eventTransition env e m with ⟨m', _ | t⟩ <;> rw [ht] at h₁ <;>
      simp only [Thread.step, ht]
    · exact ⟨h₁.1, nofun⟩
    · refine ⟨h₁.1, ?_⟩
      rintro _ ⟨⟩ _ ⟨hs, -⟩
      exact nomatch hs.symm.trans (h₁.2 t rfl)
  | afterLock t => exact ⟨h.eventAfterLock env fun hs => hth _ ⟨hs, rfl⟩, nofun⟩
  | handleTrainingFailure t i level =>
    simp only [Thread.step]
    split
    · exact ⟨h, nofun⟩
    · next n hn =>
      refine ⟨h.emit (by simp), fun th' hth' k hk => ?_⟩
      split at hth'
      · next hd =>
        cases hth'
        rw [← hk]
        simp only [trainingFailureDecision_fst, Bool.and_eq_true] at hd
        exact h.src_of_relaunchable hn hd.2
      · cases hth'
  | relaunchNode t i =>
    simp only [Thread.step]
    split
    · exact ⟨h, nofun⟩
    · next n hn =>
      obtain ⟨-, ht, hi⟩ := JobNodes.jobNode_some hn
      exact ⟨h.relaunchNode env (by rw [Node.key, ht, hi]; exact hth _ rfl), nofun⟩
  | stop =>
    simp only [Thread.step]
    split_ifs
    · exact ⟨h, nofun⟩
    · exact ⟨h.flags rfl rfl fun h' => by simp at h', by rintro _ ⟨⟩ _ ⟨⟩⟩
  | stopLocked =>
    have h₁ := hP.stopLocked h
    rcases hs : DistJobManager.stopLocked env m with ⟨m₁, _ | _⟩ <;> rw [hs] at h₁ <;>
      simp only [Thread.step, hs] <;> exact ⟨h₁, by rintro _ ⟨⟩ _ ⟨⟩⟩
  | stopFinish => exact ⟨h.flags rfl rfl id, nofun⟩
  | updateNodeResourceUsage t i cpu memory gpuStats now =>
    simp only [Thread.step]
    split
    · exact ⟨h, nofun⟩
    · next n hn => exact ⟨hP.writeAt hn ⟨rfl, rfl, id, le_rfl⟩ rfl h, by rintro _ ⟨⟩ _ ⟨⟩⟩
  | updateHangTime t i now => exact ⟨hP.updateHangTime t i now h, nofun⟩
  | updateNodeServiceAddr t i addr =>
    refine ⟨?_, nofun⟩
    simp only [Thread.step, DistJobManager.updateNodeServiceAddr]
    split
    · exact h
    · next n hn =>
      obtain ⟨-, ht, hi⟩ := JobNodes.jobNode_some hn
      exact (RelaunchesFrom.writePreserved env).write m n _ h (by rw [← ht, ← hi] at hn; exact hn)
        ⟨rfl, rfl, id, le_rfl⟩
  | updateNodeParalConfig t i config => exact ⟨hP.updateNodeParalConfig t i config h, nofun⟩
  | processListNodes nodes => exact ⟨h, by rintro _ ⟨⟩ _ ⟨⟩⟩
  | listFirst p rest =>
    cases rest with
    | nil => exact ⟨h, by rintro _ ⟨⟩ _ ⟨⟩⟩
    | cons node rest =>
      simp only [Thread.step]
      split_ifs
      · exact ⟨hP.listedNodeUpdate trivial h, by rintro _ ⟨⟩ _ (hk | hk) <;> exact hk.elim⟩
      · exact ⟨h, nofun⟩
  | listSecond p ts => cases ts <;> exact ⟨h, by rintro _ ⟨⟩ _ ⟨⟩⟩
  | visitIds p t ids ts =>
    cases ids with
    | nil => exact ⟨h, by rintro _ ⟨⟩ _ ⟨⟩⟩
    | cons i ids =>
      simp only [Thread.step]
      split <;> exact ⟨h, by rintro _ ⟨⟩ _ (hk | hk) <;> exact hk.elim⟩
  | retire p t i xs ids ts =>
    cases xs with
    | nil => exact ⟨h, by rintro _ ⟨⟩ _ ⟨⟩⟩
    | cons x xs =>
      simp only [Thread.step]
      split <;> exact ⟨h, by rintro _ ⟨⟩ _ (hk | hk) <;> exact hk.elim⟩
  | seq inner next ih _ =>
    have h₁ := ih (fun k hk => hth k (.inl hk)) h
    rcases hs : inner.step env m with ⟨m₁, _ | th'⟩ <;> rw [hs] at h₁ <;> simp only [Thread.step, hs]
    · exact ⟨h₁.1, fun _ h' k hk => by cases h'; exact hth k (.inr hk)⟩
    · refine ⟨h₁.1, fun _ h' k hk => ?_⟩
      cases h'
      rcases hk with hk | hk
      exacts [h₁.2 th' rfl k hk, hth k (.inr hk)]

end Steps

/-- Once relaunching is off, every later relaunch is of a key in `s.RelaunchSource`. -/
theorem relaunch_sources_when_disabled (env : ManagerEnv) {s s' : Sys}
    (hoff : s.manager.enableRelaunchNode = false) (hs : Sys.Reachable env s s') :
    s'.manager.enableRelaunchNode = false ∧
      ∃ new, relaunchedNodes s'.manager.outputs = relaunchedNodes s.manager.outputs ++ new ∧
        ∀ n ∈ new, s.RelaunchSource n.key := by
  have h₀ : RelaunchesFrom s.RelaunchSource (relaunchedNodes s.manager.outputs) s.manager := by
    refine ⟨hoff, fun t i hk => ?_, [], by simp, by simp⟩
    cases hx : s.manager.jobNodes.jobNode t i with
    | none => exact absurd (.inr (.inl hx)) hk
    | some x => exact ⟨x, rfl, Bool.eq_false_iff.mpr fun hr => hk (.inl ⟨x, hx, hr⟩)⟩
  have h := (hs.invariant (T := fun th => ∀ k, th.RelaunchAt k → s.RelaunchSource k)
    (fun c k hk => by cases c <;> cases hk) (fun th _ hth hm => Thread.step_relaunchesFrom env th hth hm)
    ⟨h₀, fun th hth k hk => .inr (.inr ⟨th, hth, hk⟩)⟩).1
  exact ⟨h.disabled, h.reports⟩

theorem relaunch_sources_when_disabled_listed_worker :
    ∃ s', Sys.Reachable goneEnv ⟨stop goneEnv (oneNodeJob runningWorker), []⟩ s' ∧
      (relaunchedNodes s'.manager.outputs).map Node.key = [(.worker, 1)] ∧
      s'.manager.enableRelaunchNode = false ∧
      ∃ new, relaunchedNodes s'.manager.outputs =
          relaunchedNodes (stop goneEnv (oneNodeJob runningWorker)).outputs ++ new ∧
        ∀ n ∈ new, Sys.RelaunchSource ⟨stop goneEnv (oneNodeJob runningWorker), []⟩ n.key := by
  have hs : Sys.Reachable goneEnv ⟨stop goneEnv (oneNodeJob runningWorker), []⟩ _ :=
    (Call.reachable_exec (.processListNodes [{ type := .worker, id := 1, status := .running }])
      (by decide)).trans (Call.reachable_exec (.handleTrainingFailure .worker 1 .nodeError) (by decide))
  exact ⟨_, hs, by decide, relaunch_sources_when_disabled goneEnv (by decide) hs⟩

end DistJobManager
