import DistJobManager.Invariants
import DistJobManager.EventEffects

/-! The bulk releases `clear_exited_nodes` and `remove_training_nodes`, and `stop()`: each writes
back the nodes it selects in a form it no longer selects, so a second call finds nothing. -/

namespace DistJobManager

/-- `all_critical_node_completed()`: no critical node is `INITIAL`, `PENDING` or `RUNNING`. -/
def allCriticalNodeCompleted (s : JobNodes) : Bool :=
  s.all.all fun n => !(n.critical && (n.status = .initial || n.status = .pending || n.status = .running))

theorem mem_all_updateJobNodes_filter {s : JobNodes} {l : List Node} {p : Node → Bool}
    {f : Node → Node} (hf : ∀ n, (f n).type = n.type ∧ (f n).id = n.id) (hl : l.Sublist s.all)
    {x : Node} (hx : x ∈ (s.updateJobNodes ((l.filter p).map f)).all) :
    ∃ y ∈ s.all, x = if y ∈ l ∧ p y = true then f y else y := by
  have hx' := JobNodes.jobNode_of_mem (JobNodes.mem_all.mp hx)
  rw [JobNodes.jobNode_updateJobNodes_map _ _ f hf
    (fun y hy => JobNodes.mem_all.mp (hl.subset (List.mem_filter.mp hy).1))] at hx'
  obtain ⟨y, hy, hxy⟩ := Option.map_eq_some'.mp hx'
  obtain ⟨hyn, hyt, -⟩ := JobNodes.jobNode_some hy
  refine ⟨y, JobNodes.mem_all.mpr (hyt ▸ hyn), ?_⟩
  rw [← hxy]
  simp [List.mem_filter]

theorem isSome_byType_updateJobNodes (t : NodeType) :
    ∀ (s : JobNodes) (l : List Node), (s.byType t).isSome → ((s.updateJobNodes l).byType t).isSome
  | _, [], h => h
  | s, n :: l, h => isSome_byType_updateJobNodes t (s.updateJobNode n) l (by
      rw [JobNodes.byType_updateJobNode]
      by_cases ht : t = n.type
      · subst ht
        simp
      · rwa [Function.update_noteq ht])

section Clear

variable {env : ManagerEnv} {m : DistributedJobManager}

theorem clearExitedNodes_of_none
    (h : m.jobNodes.all.filter (fun n => !n.isReleased && n.exited) = []) :
    clearExitedNodes env m = m := by
  simp [clearExitedNodes, h, JobNodes.updateJobNodes]

theorem clearExitedNodes_idempotent (env : ManagerEnv) (m : DistributedJobManager) :
    (env.removeExitedNode = true →
      ∀ n ∈ (clearExitedNodes env m).jobNodes.all, n.exited = true → n.isReleased = true) ∧
      clearExitedNodes env (clearExitedNodes env m) = clearExitedNodes env m := by
  by_cases hr : env.removeExitedNode = true
  · have hrel : ∀ n ∈ (clearExitedNodes env m).jobNodes.all, n.exited = true → n.isReleased = true := by
      intro x hx hex
      have hj : (clearExitedNodes env m).jobNodes = m.jobNodes.updateJobNodes
          ((m.jobNodes.all.filter fun n => !n.isReleased && n.exited).map
            fun n => { n with isReleased := true }) := by
        simp only [clearExitedNodes, hr, Bool.not_true, Bool.false_eq_true, if_false]
        split <;> rfl
      rw [hj] at hx
      obtain ⟨y, hy, rfl⟩ := mem_all_updateJobNodes_filter (f := fun n => { n with isReleased := true })
        (p := fun n => !n.isReleased && n.exited) (fun _ => ⟨rfl, rfl⟩) (List.Sublist.refl _) hx
      split_ifs at hex ⊢ with h
      · rfl
      · simpa [hy, hex] using h
    refine ⟨fun _ => hrel, clearExitedNodes_of_none (List.filter_eq_nil_iff.mpr fun x hx => ?_)⟩
    cases hx' : x.exited <;> simp [hrel x hx, hx']
  · simp [clearExitedNodes, hr]

end Clear

section Remove

variable {m : DistributedJobManager}

def removable (n : Node) : Bool := (n.status = .running || n.status = .pending) && !n.isReleased

theorem removeTrainingNodes_eq {workers pss : List Node} (hw : m.jobNodes.byType .worker = some workers)
    (hps : m.jobNodes.byType .ps = some pss) :
    removeTrainingNodes m =
      { m with jobNodes := m.jobNodes.updateJobNodes (((workers ++ pss).filter removable).map removedNode) }.emit
        [.scale { removeNodes := ((workers ++ pss).filter removable).map removedNode }] := by
  simp only [removeTrainingNodes, hw, hps]
  rfl

theorem mem_workers_ps_iff {workers pss : List Node} (hw : m.jobNodes.byType .worker = some workers)
    (hps : m.jobNodes.byType .ps = some pss) {t : NodeType} {i : Nat} {n : Node}
    (hn : m.jobNodes.jobNode t i = some n) : n ∈ workers ++ pss ↔ t = .worker ∨ t = .ps := by
  obtain ⟨hn, rfl, -⟩ := JobNodes.jobNode_some hn
  have hw' : m.jobNodes.nodes .worker = workers := by simp [JobNodes.nodes, hw]
  have hps' : m.jobNodes.nodes .ps = pss := by simp [JobNodes.nodes, hps]
  rw [List.mem_append, ← hw', ← hps']
  constructor
  · rintro (h | h) <;> simp [JobNodes.type_of_mem_nodes h]
  · rintro (h | h) <;> simp only [← h, hn, true_or, or_true]

/-- `remove_training_nodes()` stores the running and pending workers and PSs removed, once. -/
theorem removeTrainingNodes_spec (m : DistributedJobManager)
    (hw : (m.jobNodes.byType .worker).isSome) (hps : (m.jobNodes.byType .ps).isSome) :
    let m' := removeTrainingNodes m
    (∀ t i n, m.jobNodes.jobNode t i = some n → m'.jobNodes.jobNode t i = some
      (if (t = .worker ∨ t = .ps) ∧ (n.status = .running ∨ n.status = .pending) ∧ n.isReleased = false
        then removedNode n else n)) ∧
      removeTrainingNodes m' = m'.emit [.scale { removeNodes := [] }] := by
  intro m'
  obtain ⟨workers, hw⟩ := Option.isSome_iff_exists.mp hw
  obtain ⟨pss, hps⟩ := Option.isSome_iff_exists.mp hps
  have hsub := JobNodes.workers_ps_sublist hw hps
  have hm' : m' = _ := removeTrainingNodes_eq hw hps
  have hmap : ∀ t i, m'.jobNodes.jobNode t i = (m.jobNodes.jobNode t i).map fun y =>
      if y ∈ (workers ++ pss).filter removable then removedNode y else y := by
    intro t i
    rw [hm', DistributedJobManager.emit_jobNodes, JobNodes.jobNode_updateJobNodes_map _ _ removedNode
      (fun _ => ⟨rfl, rfl⟩) (fun y hy => JobNodes.mem_all.mp (hsub.subset (List.mem_filter.mp hy).1))]
  have hstore : ∀ t i n, m.jobNodes.jobNode t i = some n → m'.jobNodes.jobNode t i = some
      (if (t = .worker ∨ t = .ps) ∧ (n.status = .running ∨ n.status = .pending) ∧ n.isReleased = false
        then removedNode n else n) := by
    intro t i n hn
    rw [hmap, hn, Option.map_some']
    exact congrArg some (if_congr (by rw [List.mem_filter, mem_workers_ps_iff hw hps hn]; simp [removable])
      rfl rfl)
  refine ⟨hstore, ?_⟩
  have hentry : ∀ t, (m.jobNodes.byType t).isSome → (m'.jobNodes.byType t).isSome := fun t h => by
    rw [hm']
    exact isSome_byType_updateJobNodes t m.jobNodes _ h
  obtain ⟨workers', hw'⟩ := Option.isSome_iff_exists.mp (hentry .worker (by simp [hw]))
  obtain ⟨pss', hps'⟩ := Option.isSome_iff_exists.mp (hentry .ps (by simp [hps]))
  have hnone : (workers' ++ pss').filter removable = [] := by
    refine List.filter_eq_nil_iff.mpr fun x hx => ?_
    have hx' := (stored_of_sublist (JobNodes.workers_ps_sublist hw' hps')).1 x hx
    have htype := (mem_workers_ps_iff hw' hps' hx').mp hx
    rw [hmap] at hx'
    obtain ⟨n, hn, rfl⟩ := Option.map_eq_some'.mp hx'
    split_ifs with h
    · simp [removable, removedNode]
    · rw [List.mem_filter, mem_workers_ps_iff hw hps hn] at h
      simpa using fun h' => h ⟨htype, h'⟩
  rw [removeTrainingNodes_eq hw' hps', hnone]
  rfl

theorem removeTrainingNodes_spec_running_worker :
    let m : DistributedJobManager :=
      { oneNodeJob runningWorker with jobNodes := (oneNodeJob runningWorker).jobNodes.addType .ps }
    (m.jobNodes.byType .worker).isSome ∧ (m.jobNodes.byType .ps).isSome ∧
      let m' := removeTrainingNodes m
      (∀ t i n, m.jobNodes.jobNode t i = some n → m'.jobNodes.jobNode t i = some
        (if (t = .worker ∨ t = .ps) ∧ (n.status = .running ∨ n.status = .pending) ∧ n.isReleased = false
          then removedNode n else n)) ∧
        removeTrainingNodes m' = m'.emit [.scale { removeNodes := [] }] :=
  ⟨rfl, rfl, removeTrainingNodes_spec _ rfl rfl⟩

end Remove

/-- After `stop()`, every node is released and neither critical nor relaunchable. -/
theorem stop_completes_critical_nodes (env : ManagerEnv) (m : DistributedJobManager)
    (hm : m.stopped = false) :
    (∀ n ∈ (stop env m).jobNodes.all,
      n.critical = false ∧ n.isReleased = true ∧ n.relaunchable = false) ∧
      allCriticalNodeCompleted (stop env m).jobNodes = true := by
  have h : ∀ n ∈ (stop env m).jobNodes.all,
      n.critical = false ∧ n.isReleased = true ∧ n.relaunchable = false :=
    fun n hn => stop_jobNode hm _ _ n (JobNodes.jobNode_of_mem (JobNodes.mem_all.mp hn))
  exact ⟨h, List.all_eq_true.mpr fun n hn => by simp [(h n hn).1]⟩

theorem stop_completes_critical_nodes_running_worker :
    (oneNodeJob runningWorker).stopped = false ∧
      (∀ n ∈ (stop goneEnv (oneNodeJob runningWorker)).jobNodes.all,
        n.critical = false ∧ n.isReleased = true ∧ n.relaunchable = false) ∧
      allCriticalNodeCompleted (stop goneEnv (oneNodeJob runningWorker)).jobNodes = true :=
  ⟨rfl, stop_completes_critical_nodes goneEnv _ rfl⟩

end DistJobManager
