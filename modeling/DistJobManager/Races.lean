import DistJobManager.Interleaving
import DistJobManager.EventEffects
import DistJobManager.Invariants

/-! Relaunches and reports under the lock discipline of the source: one call at a time, each node
is relaunched once; with `_relaunch_node` outside the lock, twice, or after `stop()`. -/

namespace DistJobManager

/-- Each node relaunched so far is relaunched once and stored non-relaunchable. -/
def RelaunchedOnce (m : DistributedJobManager) : Prop :=
  ((relaunchedNodes m.outputs).map Node.key).Nodup ∧
    ∀ n ∈ relaunchedNodes m.outputs,
      ∃ n', m.jobNodes.jobNode n.type n.id = some n' ∧ n'.relaunchable = false

theorem relaunchedOnce_writePreserved (env : ManagerEnv) :
    WritePreserved env (fun _ => True) RelaunchedOnce where
  write m n₀ n hI hn he := by
    refine ⟨hI.1, fun x hx => ?_⟩
    obtain ⟨x', hx', hr⟩ := hI.2 x hx
    simp only [DistributedJobManager.write_jobNodes, JobNodes.jobNode_updateJobNode]
    split_ifs with hk
    · refine ⟨n, rfl, ?_⟩
      have : n₀ = x' := Option.some.inj (hn.symm.trans (by rw [hk.1, hk.2]; exact hx'))
      cases hn' : n.relaunchable
      · rfl
      · simpa [this, hr] using he.relaunchable_imp hn'
    · exact ⟨x', hx', hr⟩
  emit m o hI ho := by simpa [RelaunchedOnce, ho] using hI
  relaunch m n₀ n hI hn he hr hm := by
    have hnew : n.key ∉ (relaunchedNodes m.outputs).map Node.key := by
      simp only [List.mem_map, not_exists, not_and]
      intro x hx hk
      obtain ⟨x', hx', hr'⟩ := hI.2 x hx
      have : x.type = n.type ∧ x.id = n.id := by simpa [Node.key] using hk
      rw [this.1, this.2, hn] at hx'
      cases hx'
      simp [hr] at hr'
    have hfresh := JobNodes.jobNode_nextId m.jobNodes n.type
    rw [relaunchNode_of_manager env m hm]
    refine ⟨by simpa [List.nodup_append, hnew] using hI.1, fun x hx => ?_⟩
    simp only [relaunchedNodes_append, List.mem_append] at hx
    simp only [JobNodes.jobNode_updateJobNode, Node.relaunchedAs]
    rcases hx with hx | hx
    · obtain ⟨x', hx', hr'⟩ := hI.2 x hx
      split_ifs with h₁ h₂
      · exact ⟨_, rfl, rfl⟩
      · rw [← h₂.1, ← h₂.2, hfresh] at hx'
        cases hx'
      · exact ⟨x', hx', hr'⟩
    · simp at hx
      subst hx
      simp
  flags m m' hI hj ho _ := by simpa [RelaunchedOnce, hj, ho] using hI
  reAdd m n hI hn _ := by
    refine ⟨hI.1, fun x hx => ?_⟩
    obtain ⟨x', hx', hr⟩ := hI.2 x hx
    simp only [DistributedJobManager.write_jobNodes, JobNodes.jobNode_updateJobNode]
    split_ifs with hk
    · rw [← hk.1, ← hk.2, hn] at hx'
      cases hx'
    · exact ⟨x', hx', hr⟩

theorem serial_relaunch_at_most_once (env : ManagerEnv) (args : JobArgs) (hasRunningWorkers : Bool)
    {m₀ : DistributedJobManager} (h : DistributedJobManager.start args hasRunningWorkers = some m₀)
    (ops : List Op) : ((relaunchedNodes (run env m₀ ops).outputs).map Node.key).Nodup := by
  have h₀ : relaunchedNodes m₀.outputs = [] := by
    unfold DistributedJobManager.start at h
    obtain ⟨c, -, rfl⟩ := Option.map_eq_some'.mp h
    split_ifs <;> simp
  exact ((relaunchedOnce_writePreserved env).run ops m₀ (fun _ _ _ _ => trivial)
    (by simp [RelaunchedOnce, h₀])).1

theorem serial_relaunch_at_most_once_failure_then_error :
    ∃ m₀, DistributedJobManager.start oneWorkerArgs false = some m₀ ∧
      ((relaunchedNodes (run goneEnv m₀ [.processEvent ⟨.modified,
        { type := .worker, id := 0, status := .failed }⟩, .handleTrainingFailure .worker 0 .nodeError]).outputs).map
          Node.key).Nodup :=
  ⟨_, rfl, serial_relaunch_at_most_once goneEnv oneWorkerArgs false rfl _⟩

/-! The agents' reports and `handle_training_failure` read the live node of their key and
change it in place, so no step of theirs brings back a field that another call wrote. -/

def Thread.isReport : Thread → Bool
  | .handleTrainingFailure .. | .relaunchNode .. | .updateNodeResourceUsage .. | .updateHangTime ..
  | .updateNodeServiceAddr .. | .updateNodeParalConfig .. => true
  | _ => false

/-- What a report leaves of a stored node: all an event wrote, but the address report's RUNNING. -/
def KeepsEventWrites (th : Thread) (t : NodeType) (i : Nat) (n n' : Node) : Prop :=
  n'.exitReason = n.exitReason ∧ n'.relaunchCount = n.relaunchCount ∧
    (n.relaunchable = false → n'.relaunchable = false) ∧
    (n'.status = n.status ∨ (∃ addr, th = .updateNodeServiceAddr t i addr) ∧ n'.status = .running)

theorem keepsEventWrites_refl (th : Thread) (t : NodeType) (i : Nat) (n : Node) :
    KeepsEventWrites th t i n n := ⟨rfl, rfl, id, .inl rfl⟩

theorem keeps_of_write {th : Thread} {m : DistributedJobManager} {t₀ : NodeType} {i₀ : Nat}
    {x y : Node} (hx : m.jobNodes.jobNode t₀ i₀ = some x) (hk : y.key = x.key)
    (hy : KeepsEventWrites th t₀ i₀ x y) {t : NodeType} {i : Nat} {n : Node}
    (hn : m.jobNodes.jobNode t i = some n) :
    ∃ n', (m.write y).jobNodes.jobNode t i = some n' ∧ KeepsEventWrites th t i n n' := by
  obtain ⟨-, ht₀, hi₀⟩ := JobNodes.jobNode_some hx
  simp only [Node.key, Prod.mk.injEq] at hk
  rw [DistributedJobManager.write_jobNodes, JobNodes.jobNode_updateJobNode]
  split_ifs with h
  · obtain ⟨rfl, rfl⟩ := h
    rw [hk.1, hk.2, ht₀, hi₀, hx] at hn
    cases hn
    exact ⟨y, rfl, by simpa [hk.1, hk.2, ht₀, hi₀] using hy⟩
  · exact ⟨n, hn, keepsEventWrites_refl th t i n⟩

theorem Thread.step_keepsEventWrites (env : ManagerEnv) {th : Thread} (hr : th.isReport)
    (m : DistributedJobManager) {t : NodeType} {i : Nat} {n : Node}
    (hn : m.jobNodes.jobNode t i = some n) :
    ∃ n', (th.step env m).1.jobNodes.jobNode t i = some n' ∧ KeepsEventWrites th t i n n' := by
  cases th with
  | handleTrainingFailure t₀ i₀ level =>
    simp only [Thread.step]
    split
    · exact ⟨n, hn, keepsEventWrites_refl _ t i n⟩
    · exact ⟨n, by simpa using hn, keepsEventWrites_refl _ t i n⟩
  | relaunchNode t₀ i₀ =>
    simp only [Thread.step]
    split
    · exact ⟨n, hn, keepsEventWrites_refl _ t i n⟩
    · next node hnode =>
      obtain ⟨-, ht₀, hi₀⟩ := JobNodes.jobNode_some hnode
      by_cases hm : node.type.hasNodeManager
      · rw [relaunchNode_jobNode env m hm]
        split_ifs with h₁ h₂
        · obtain ⟨rfl, rfl⟩ := h₁
          rw [ht₀, hi₀, hnode] at hn
          cases hn
          exact ⟨_, rfl, rfl, rfl, fun _ => rfl, .inl rfl⟩
        · obtain ⟨rfl, rfl⟩ := h₂
          rw [JobNodes.jobNode_nextId] at hn
          cases hn
        · exact ⟨n, hn, keepsEventWrites_refl _ t i n⟩
      · rw [relaunchNode_of_not_manager env m (by simpa using hm)]
        exact ⟨n, hn, keepsEventWrites_refl _ t i n⟩
  | updateNodeResourceUsage t₀ i₀ cpu memory gpuStats now =>
    simp only [Thread.step]
    split
    · exact ⟨n, hn, keepsEventWrites_refl _ t i n⟩
    · next x hx =>
      exact keeps_of_write (y := x.updateResourceUsage cpu memory gpuStats) hx rfl
        ⟨rfl, rfl, id, .inl rfl⟩ hn
  | updateHangTime t₀ i₀ now =>
    simp only [Thread.step, DistJobManager.updateHangTime]
    split
    · exact ⟨n, hn, keepsEventWrites_refl _ t i n⟩
    · next x hx =>
      split
      · exact ⟨n, hn, keepsEventWrites_refl _ t i n⟩
      · next y hy =>
        obtain ⟨h, rfl⟩ := resourceUsageWrite_some hy
        exact keeps_of_write (y := { x with startHangTime := h }) hx rfl ⟨rfl, rfl, id, .inl rfl⟩ hn
  | updateNodeServiceAddr t₀ i₀ addr =>
    simp only [Thread.step, DistJobManager.updateNodeServiceAddr]
    split
    · exact ⟨n, hn, keepsEventWrites_refl _ t i n⟩
    · next x hx =>
      exact keeps_of_write (y := serviceAddrNode addr x) hx rfl ⟨rfl, rfl, id, .inr ⟨⟨addr, rfl⟩, rfl⟩⟩ hn
  | updateNodeParalConfig t₀ i₀ config =>
    simp only [Thread.step, DistJobManager.updateNodeParalConfig]
    split
    · exact ⟨n, hn, keepsEventWrites_refl _ t i n⟩
    · next x hx =>
      exact keeps_of_write (y := { x with paralConfig := some config }) hx rfl ⟨rfl, rfl, id, .inl rfl⟩ hn
  | _ => simp [Thread.isReport] at hr

theorem report_steps_keep_event_writes (env : ManagerEnv) {s s' : Sys} {k : Nat} {th : Thread}
    (hk : s.threads.get? k = some th) (hr : th.isReport) (hs : s.step env (.advance k) = some s')
    {t : NodeType} {i : Nat} {n : Node} (hn : s.manager.jobNodes.jobNode t i = some n) :
    ∃ n', s'.manager.jobNodes.jobNode t i = some n' ∧ n'.exitReason = n.exitReason ∧
      n'.relaunchCount = n.relaunchCount ∧ (n.relaunchable = false → n'.relaunchable = false) ∧
      (n'.status = n.status ∨ (∃ addr, th = .updateNodeServiceAddr t i addr) ∧ n'.status = .running) := by
  have h := Thread.step_keepsEventWrites env hr s.manager hn
  simp only [Sys.step, hk] at hs
  split_ifs at hs
  split at hs <;> cases hs <;> rename_i heq <;> simpa [heq] using h

def failedRelaunchedWorker : Node :=
  { runningWorker with status := .failed, relaunchCount := 1, relaunchable := false }

theorem report_steps_keep_event_writes_paral_config :
    let s : Sys := ⟨oneNodeJob failedRelaunchedWorker, [.updateNodeParalConfig .worker 0 "cfg"]⟩
    let s' : Sys := ⟨updateNodeParalConfig .worker 0 "cfg" (oneNodeJob failedRelaunchedWorker), []⟩
    s.threads.get? 0 = some (.updateNodeParalConfig .worker 0 "cfg") ∧
      Thread.isReport (.updateNodeParalConfig .worker 0 "cfg") ∧
      s.step goneEnv (.advance 0) = some s' ∧
      s.manager.jobNodes.jobNode .worker 0 = some failedRelaunchedWorker ∧
      ∃ n', s'.manager.jobNodes.jobNode .worker 0 = some n' ∧
        n'.exitReason = failedRelaunchedWorker.exitReason ∧
        n'.relaunchCount = failedRelaunchedWorker.relaunchCount ∧
        (failedRelaunchedWorker.relaunchable = false → n'.relaunchable = false) ∧
        (n'.status = failedRelaunchedWorker.status ∨
          (∃ addr, Thread.updateNodeParalConfig .worker 0 "cfg" = .updateNodeServiceAddr .worker 0 addr) ∧
            n'.status = .running) := by
  intro s s'
  have hk : s.threads.get? 0 = some (.updateNodeParalConfig .worker 0 "cfg") := rfl
  have hs : s.step goneEnv (.advance 0) = some s' := rfl
  have hn : s.manager.jobNodes.jobNode .worker 0 = some failedRelaunchedWorker := by decide
  exact ⟨hk, rfl, hs, hn, report_steps_keep_event_writes goneEnv hk rfl hs hn⟩

def failedWorker : NodeEvent := ⟨.modified, { type := .worker, id := 0, status := .failed }⟩

/-- A node error between the decision and `_relaunch_node`: the worker is relaunched twice. -/
theorem node_error_during_relaunch_relaunches_twice :
    ∃ m₀, DistributedJobManager.start oneWorkerArgs false = some m₀ ∧
      ∃ s, Sys.Reachable goneEnv ⟨m₀, []⟩ s ∧
        (relaunchedNodes s.manager.outputs).map Node.key = [(.worker, 0), (.worker, 0)] :=
  ⟨_, rfl, Sys.reachable_of_runSchedule_any
    [.call (.processEvent failedWorker), .advance 0, .advance 0,
      .call (.handleTrainingFailure .worker 0 .nodeError), .advance 1, .advance 1, .advance 0]
    (by decide)⟩

/-- `stop()` between the decision and `_relaunch_node`: the relaunch still happens after it. -/
theorem stop_before_relaunch_still_relaunches :
    ∃ m₀, DistributedJobManager.start oneWorkerArgs false = some m₀ ∧
      ∃ s₁, Sys.Reachable goneEnv ⟨m₀, []⟩ s₁ ∧
        (s₁.manager.stopped = true ∧ relaunchedNodes s₁.manager.outputs = []) ∧
        ∃ s₂, Sys.Reachable goneEnv s₁ s₂ ∧
          (relaunchedNodes s₂.manager.outputs).map Node.key = [(.worker, 0)] ∧
          (s₂.manager.jobNodes.jobNode .worker 1).isSome :=
  ⟨_, rfl, Sys.reachable_of_runSchedule_any₂
    [.call (.processEvent failedWorker), .advance 0, .advance 0, .call .stop,
      .advance 1, .advance 1, .advance 1]
    [.advance 0] (by decide)⟩

end DistJobManager
