import DistJobManager.EventEffects
import Mathlib.Algebra.Order.Ring.Rat
import Mathlib.Tactic.NormNum

/-! Usage reports. What `update_node_resource_usage` leaves stored on each branch of the
configured resource, and the hang start along a sequence of reports for a CPU-only node. -/

namespace DistJobManager

/-- A report records the usage on the live node on every branch of the configured resource. -/
theorem updateNodeResourceUsage_jobNode (env : ManagerEnv) (t : NodeType) (i : Nat) (cpu : ℚ)
    (memory : Nat) (gpuStats : List GPUStats) (now : Nat) (m : DistributedJobManager) :
    (updateNodeResourceUsage env t i cpu memory gpuStats now m).jobNodes.jobNode t i =
      (m.jobNodes.jobNode t i).map fun n =>
        if n.configResource.cpu ≠ 0 ∧ n.configResource.gpuNum = 0 then
          { n.updateResourceUsage cpu memory gpuStats with
            startHangTime :=
              if cpu / n.configResource.cpu < env.hangCpuUsagePercentage then
                if n.startHangTime = 0 then now else n.startHangTime
              else 0 }
        else n.updateResourceUsage cpu memory gpuStats := by
  unfold updateNodeResourceUsage
  split
  · next hn => rw [hn]; rfl
  · next n hn =>
    obtain ⟨-, rfl, rfl⟩ := JobNodes.jobNode_some hn
    have hu : (m.write (n.updateResourceUsage cpu memory gpuStats)).jobNodes.jobNode n.type n.id =
        some (n.updateResourceUsage cpu memory gpuStats) := by
      rw [DistributedJobManager.write_jobNodes, JobNodes.jobNode_updateJobNode, if_pos ⟨rfl, rfl⟩]
    simp only [hn, Option.map_some', updateHangTime, hu, resourceUsageWrite_eq]
    by_cases h : n.configResource.cpu ≠ 0 ∧ n.configResource.gpuNum = 0
    · simp only [Node.updateResourceUsage, if_pos h]
      simp [JobNodes.jobNode_updateJobNode]
    · simp only [Node.updateResourceUsage, if_neg h] at hu ⊢
      exact hu

theorem usage_report_recorded (env : ManagerEnv) (t : NodeType) (i : Nat) (cpu : ℚ)
    (memory : Nat) (gpuStats : List GPUStats) (now : Nat) (m : DistributedJobManager) :
    ((updateNodeResourceUsage env t i cpu memory gpuStats now m).jobNodes.jobNode t i).map
        (fun n => (n.usedResource.cpu, n.usedResource.memory, n.gpuStats)) =
      (m.jobNodes.jobNode t i).map fun _ => (cpu, memory, gpuStats) := by
  rw [updateNodeResourceUsage_jobNode, Option.map_map]
  congr 1
  funext n
  simp only [Function.comp_apply]
  split_ifs <;> rfl

example :
    let n : Node := { runningWorker with configResource := { cpu := 4, gpuNum := 1 } }
    ((updateNodeResourceUsage goneEnv .worker 0 2 1024 [] 100 (oneNodeJob n)).jobNodes.jobNode
      .worker 0).map (·.usedResource) = some { cpu := 2, memory := 1024 } := by
  decide

/-- One call `update_node_resource_usage(type, id, cpu, memory, gpu_stats)` and its clock. -/
structure UsageReport where
  cpu : ℚ
  memory : Nat
  gpuStats : List GPUStats := []
  now : Nat
  deriving DecidableEq, Repr

def reportUsage (env : ManagerEnv) (t : NodeType) (i : Nat) (rs : List UsageReport)
    (m : DistributedJobManager) : DistributedJobManager :=
  rs.foldl (fun m r => updateNodeResourceUsage env t i r.cpu r.memory r.gpuStats r.now m) m

section HangStart

variable (env : ManagerEnv) (configCpu : ℚ)

def UsageReport.low (r : UsageReport) : Prop := r.cpu / configCpu < env.hangCpuUsagePercentage

instance (r : UsageReport) : Decidable (r.low env configCpu) :=
  inferInstanceAs (Decidable (_ < _))

def hangStartAfter (sht : Nat) (r : UsageReport) : Nat :=
  if r.low env configCpu then (if sht = 0 then r.now else sht) else 0

theorem hangStart_of_not_low (pre : List UsageReport) (sht : Nat) {r : UsageReport}
    (hr : ¬r.low env configCpu) : (pre ++ [r]).foldl (hangStartAfter env configCpu) sht = 0 := by
  simp [List.foldl_append, hangStartAfter, hr]

theorem hangStart_low_run {r : UsageReport} {rest : List UsageReport} (sht : Nat)
    (hlow : ∀ x ∈ r :: rest, x.low env configCpu) (hnow : 0 < r.now) :
    (r :: rest).foldl (hangStartAfter env configCpu) sht = if sht = 0 then r.now else sht := by
  have keep : ∀ (l : List UsageReport) (s : Nat), s ≠ 0 → (∀ x ∈ l, x.low env configCpu) →
      l.foldl (hangStartAfter env configCpu) s = s := by
    intro l
    induction l with
    | nil => exact fun _ _ _ => rfl
    | cons x l ih =>
      intro s hs hl
      rw [List.foldl_cons, hangStartAfter, if_pos (hl x (.head _)), if_neg hs]
      exact ih s hs fun y hy => hl y (.tail _ hy)
  rw [List.foldl_cons, hangStartAfter, if_pos (hlow r (.head _))]
  refine keep rest _ ?_ fun x hx => hlow x (.tail _ hx)
  split_ifs with hs <;> omega

end HangStart

theorem reportUsage_jobNode (env : ManagerEnv) (t : NodeType) (i : Nat) :
    ∀ (rs : List UsageReport) (m : DistributedJobManager) (n : Node),
      m.jobNodes.jobNode t i = some n → n.configResource.cpu ≠ 0 → n.configResource.gpuNum = 0 →
      ∃ n', (reportUsage env t i rs m).jobNodes.jobNode t i = some n' ∧
        n'.configResource = n.configResource ∧
        n'.startHangTime = rs.foldl (hangStartAfter env n.configResource.cpu) n.startHangTime
  | [], _, n, hn, _, _ => ⟨n, hn, rfl, rfl⟩
  | r :: rs, m, n, hn, hc, hg => by
    have h₁ := updateNodeResourceUsage_jobNode env t i r.cpu r.memory r.gpuStats r.now m
    rw [hn, Option.map_some', if_pos ⟨hc, hg⟩] at h₁
    exact reportUsage_jobNode env t i rs _ _ h₁ hc hg
/-- After reports for a CPU-only node, the hang start marks the current run of low usage. -/
theorem hang_start_marks_low_usage_run (env : ManagerEnv) (m : DistributedJobManager)
    {t : NodeType} {i : Nat} {n : Node} (hn : m.jobNodes.jobNode t i = some n)
    (hcpu : 0 < n.configResource.cpu) (hgpu : n.configResource.gpuNum = 0)
    (pre run : List UsageReport) (hnow : ∀ r ∈ pre ++ run, 0 < r.now)
    (hpre : ∀ r ∈ pre.getLast?, env.hangCpuUsagePercentage ≤ r.cpu / n.configResource.cpu)
    (hrun : ∀ r ∈ run, r.cpu / n.configResource.cpu < env.hangCpuUsagePercentage) :
    ∃ n', (reportUsage env t i (pre ++ run) m).jobNodes.jobNode t i = some n' ∧
      (∀ r ∈ (pre ++ run).getLast?,
        n'.startHangTime = 0 ↔ env.hangCpuUsagePercentage ≤ r.cpu / n.configResource.cpu) ∧
      ∀ r ∈ run.head?,
        n'.startHangTime = if pre = [] ∧ n.startHangTime ≠ 0 then n.startHangTime else r.now := by
  obtain ⟨n', h', -, hs⟩ := reportUsage_jobNode env t i (pre ++ run) m n hn hcpu.ne' hgpu
  have hpre0 : pre ≠ [] →
      pre.foldl (hangStartAfter env n.configResource.cpu) n.startHangTime = 0 := by
    intro hne
    obtain ⟨L, p, rfl⟩ := (List.eq_nil_or_concat pre).resolve_left hne
    rw [List.concat_eq_append]
    exact hangStart_of_not_low env _ L _ (not_lt.mpr (hpre p (by simp)))
  refine ⟨n', h', ?_⟩
  cases run with
  | nil =>
    refine ⟨fun r hr => ?_, by simp⟩
    rw [List.append_nil] at hr
    have hne : pre ≠ [] := by
      rintro rfl
      simp at hr
    rw [hs, List.append_nil, hpre0 hne]
    exact iff_of_true rfl (hpre r hr)
  | cons r₀ rest =>
    have hval : n'.startHangTime =
        if pre = [] ∧ n.startHangTime ≠ 0 then n.startHangTime else r₀.now := by
      rw [hs, List.foldl_append, hangStart_low_run env _ _ hrun (hnow r₀ (by simp))]
      by_cases hp : pre = []
      · subst hp
        by_cases h0 : n.startHangTime = 0 <;> simp [h0]
      · simp [hpre0 hp, hp]
    refine ⟨fun r hr => ?_, fun r hr => (Option.some.inj hr : r₀ = r) ▸ hval⟩
    have hr' : r ∈ r₀ :: rest := by
      rw [List.getLast?_append] at hr
      cases h : (r₀ :: rest).getLast? with
      | none => simp at h
      | some x =>
        rw [h] at hr
        exact List.mem_of_getLast?_eq_some (h.trans (Option.mem_def.mp hr))
    refine iff_of_false (fun h0 => ?_) (not_le.mpr (hrun r hr'))
    rw [hval] at h0
    split_ifs at h0 with hc
    · exact hc.2 h0
    · exact (hnow r₀ (by simp)).ne' h0

def cpuWorker : Node := { runningWorker with configResource := { cpu := 4 } }

theorem hang_start_marks_low_usage_run_busy_then_idle :
    let pre : List UsageReport := [⟨4, 0, [], 100⟩]
    let run : List UsageReport := [⟨0, 0, [], 200⟩, ⟨0, 0, [], 300⟩]
    (oneNodeJob cpuWorker).jobNodes.jobNode .worker 0 = some cpuWorker ∧
      0 < cpuWorker.configResource.cpu ∧ cpuWorker.configResource.gpuNum = 0 ∧
      (∀ r ∈ pre ++ run, 0 < r.now) ∧
      (∀ r ∈ pre.getLast?,
        goneEnv.hangCpuUsagePercentage ≤ r.cpu / cpuWorker.configResource.cpu) ∧
      (∀ r ∈ run, r.cpu / cpuWorker.configResource.cpu < goneEnv.hangCpuUsagePercentage) ∧
      ∃ n', (reportUsage goneEnv .worker 0 (pre ++ run) (oneNodeJob cpuWorker)).jobNodes.jobNode
          .worker 0 = some n' ∧
        (∀ r ∈ (pre ++ run).getLast?, n'.startHangTime = 0 ↔
          goneEnv.hangCpuUsagePercentage ≤ r.cpu / cpuWorker.configResource.cpu) ∧
        ∀ r ∈ run.head?, n'.startHangTime =
          if pre = [] ∧ cpuWorker.startHangTime ≠ 0 then cpuWorker.startHangTime else r.now := by
  intro pre run
  have hpre : ∀ r ∈ pre.getLast?,
      goneEnv.hangCpuUsagePercentage ≤ r.cpu / cpuWorker.configResource.cpu := by
    norm_num [pre, cpuWorker, goneEnv]
  have hrun : ∀ r ∈ run, r.cpu / cpuWorker.configResource.cpu < goneEnv.hangCpuUsagePercentage := by
    norm_num [run, cpuWorker, goneEnv]
  exact ⟨by decide, by decide, rfl, by decide, hpre, hrun,
    hang_start_marks_low_usage_run goneEnv _ (by decide) (by decide) rfl pre run (by decide) hpre hrun⟩

end DistJobManager
