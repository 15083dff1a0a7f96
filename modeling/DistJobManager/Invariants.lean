import DistJobManager.Operations

/-! The sequential manager, step by step: every call is a sequence of a few kinds of change, so
an invariant kept by each kind of change is kept along every run. -/

namespace DistJobManager

/-- A write-back keeps the key, the budget and a cleared flag, and does not lower the count. -/
structure Node.Evolves (n n' : Node) : Prop where
  key_eq : n'.key = n.key
  maxRelaunchCount_eq : n'.maxRelaunchCount = n.maxRelaunchCount
  relaunchable_imp : n'.relaunchable = true → n.relaunchable = true
  relaunchCount_le : n.relaunchCount ≤ n'.relaunchCount

theorem Node.Evolves.refl (n : Node) : n.Evolves n := ⟨rfl, rfl, fun h => h, le_rfl⟩

def Output.Quiet : Output → Prop
  | .nodeCallback _ _ => False
  | .nodeRelaunch _ _ => False
  | _ => True

theorem relaunchedNodes_of_quiet {o : List Output} (h : ∀ x ∈ o, x.Quiet) : relaunchedNodes o = [] :=
  List.filterMap_eq_nil_iff.mpr fun x hx => by
    have := h x hx
    cases x with
    | nodeRelaunch n l => exact this.elim
    | _ => rfl

def Op.events : Op → List NodeEvent
  | .processEvent e => [e]
  | .processListNodes nodes => nodes.map listedEvent
  | _ => []

/-- The nodes a call may store under a key the store lacks: those a list pass lists. -/
def Op.listed : Op → List Node
  | .processListNodes nodes => nodes
  | _ => []

def Op.isServiceAddr : Op → Bool
  | .updateNodeServiceAddr _ _ _ => true
  | _ => false

/-- An invariant kept by each kind of change the calls are made of. -/
structure Preserved (env : ManagerEnv) (Ev : NodeEvent → Prop) (Re : Node → Prop)
    (I : DistributedJobManager → Prop) : Prop where
  write : ∀ m n₀ n, I m → m.jobNodes.jobNode n.type n.id = some n₀ → n₀.Evolves n →
    n.status = n₀.status → I (m.write n)
  transition : ∀ m e cur f, I m → Ev e → m.jobNodes.jobNode e.node.type e.node.id = some cur →
    getNodeStateFlow cur.status e.eventType e.node.status = some f → f.fromStatus ≠ .succeeded →
    I ((m.write (lockedNode e (cur.updateInfo e.node))).emit
      (processNodeEvents f (lockedNode e (cur.updateInfo e.node))))
  remove : ∀ m n, I m → m.jobNodes.jobNode n.type n.id = some n →
    (n.status = .running ∨ n.status = .pending) → I (m.write (removedNode n))
  emit : ∀ m o, I m → (∀ x ∈ o, x.Quiet) → I (m.emit o)
  relaunch : ∀ m n₀ n, I m → m.jobNodes.jobNode n.type n.id = some n₀ → n₀.Evolves n →
    n.status = n₀.status → n₀.relaunchable = true → n.type.hasNodeManager = true →
    I (relaunchNode env n m)
  flags : ∀ m m', I m → m'.jobNodes = m.jobNodes → m'.outputs = m.outputs →
    (m'.enableRelaunchNode = true → m.enableRelaunchNode = true) → I m'
  reAdd : ∀ m n, I m → m.jobNodes.jobNode n.type n.id = none → n.status ≠ .deleted → Re n →
    I (m.write n)

theorem updateJobNodes_of_write {I : DistributedJobManager → Prop} (f g : Node → Node)
    (hk : ∀ n, (f n).key = (g n).key) (P : Node → Prop)
    (hw : ∀ m n, I m → P n → m.jobNodes.jobNode (f n).type (f n).id = some (g n) → I (m.write (f n))) :
    ∀ (l : List Node) (m : DistributedJobManager), I m →
      (∀ n ∈ l, P n ∧ m.jobNodes.jobNode n.type n.id = some (g n)) → (l.map Node.key).Nodup →
      I { m with jobNodes := m.jobNodes.updateJobNodes (l.map f) }
  | [], m, hI, _, _ => by simpa [JobNodes.updateJobNodes] using hI
  | a :: l, m, hI, hst, hnd => by
    obtain ⟨hPa, ha⟩ := hst a (.head _)
    obtain ⟨-, hta, hia⟩ := JobNodes.jobNode_some ha
    have hft : (f a).type = a.type := (congrArg Prod.fst (hk a)).trans hta
    have hfi : (f a).id = a.id := (congrArg Prod.snd (hk a)).trans hia
    have hnd' := List.nodup_cons.mp hnd
    have := updateJobNodes_of_write f g hk P hw l (m.write (f a))
      (hw m a hI hPa (by rw [hft, hfi]; exact ha)) (fun n hn => by
        refine ⟨(hst n (.tail _ hn)).1, ?_⟩
        rw [DistributedJobManager.write_jobNodes, JobNodes.jobNode_updateJobNode, if_neg]
        · exact (hst n (.tail _ hn)).2
        · rintro ⟨ht, hi⟩
          exact hnd'.1 (List.mem_map.mpr ⟨n, hn, by simp [Node.key, ← ht, ← hi, hft, hfi]⟩)) hnd'.2
    simpa [JobNodes.updateJobNodes, DistributedJobManager.write] using this

theorem stored_of_sublist {s : JobNodes} {l : List Node} (hl : l.Sublist s.all) :
    (∀ n ∈ l, s.jobNode n.type n.id = some n) ∧ (l.map Node.key).Nodup :=
  ⟨fun _ hn => JobNodes.jobNode_of_mem (JobNodes.mem_all.mp (hl.subset hn)),
    s.keys_nodup.sublist (hl.map _)⟩

def Node.Stopped (n : Node) : Prop := n.critical = false ∧ n.isReleased = true ∧ n.relaunchable = false

theorem stop_jobNode {env : ManagerEnv} {m : DistributedJobManager} (hm : m.stopped = false) :
    (stop env m).jobNodes.Every Node.Stopped := by
  have h₁ : (m.jobNodes.updateJobNodes (m.jobNodes.all.map stopNode)).Every Node.Stopped := by
    intro t i x hx
    rw [JobNodes.jobNode_updateJobNodes_map _ _ stopNode (fun _ => ⟨rfl, rfl⟩)
      (fun y hy => JobNodes.mem_all.mp hy)] at hx
    obtain ⟨y, hy, rfl⟩ := Option.map_eq_some'.mp hx
    obtain ⟨hy, ht, -⟩ := JobNodes.jobNode_some hy
    simp [JobNodes.mem_all.mpr (ht ▸ hy), stopNode, Node.Stopped]
  have h₂ : (stopLocked env { m with enableRelaunchNode := false }).1.jobNodes.Every Node.Stopped := by
    unfold stopLocked
    dsimp only
    split
    · exact h₁
    · next workers hw =>
      refine h₁.updateJobNodes fun x hx => ?_
      obtain ⟨w, hw', rfl⟩ := List.mem_map.mp hx
      exact h₁ _ _ w (JobNodes.jobNode_of_mem (t := .worker) (by simp [JobNodes.nodes, hw, hw']))
  unfold stop
  rw [if_neg (by simp [hm])]
  rcases hs : stopLocked env { m with enableRelaunchNode := false } with ⟨m₁, _ | _⟩ <;>
    rw [hs] at h₂ <;> exact h₂

namespace Preserved

variable {env : ManagerEnv} {Ev : NodeEvent → Prop} {Re : Node → Prop}
  {I : DistributedJobManager → Prop} {m : DistributedJobManager}

theorem updateJobNodes (hP : Preserved env Ev Re I) (f g : Node → Node)
    (hf : ∀ n, (g n).Evolves (f n)) (hs : ∀ n, (f n).status = (g n).status) (l : List Node)
    (hI : I m) (hst : ∀ n ∈ l, m.jobNodes.jobNode n.type n.id = some (g n))
    (hnd : (l.map Node.key).Nodup) :
    I { m with jobNodes := m.jobNodes.updateJobNodes (l.map f) } :=
  updateJobNodes_of_write f g (fun n => (hf n).key_eq) (fun _ => True)
    (fun m n hI _ h => hP.write m (g n) (f n) hI h (hf n) (hs n)) l m hI
    (fun n hn => ⟨trivial, hst n hn⟩) hnd

theorem writeAt (hP : Preserved env Ev Re I) {t : NodeType} {i : Nat} {n n' : Node}
    (hn : m.jobNodes.jobNode t i = some n) (hf : n.Evolves n') (hs : n'.status = n.status)
    (hI : I m) : I (m.write n') := by
  obtain ⟨-, ht, hi⟩ := JobNodes.jobNode_some hn
  have hk := congrArg Prod.fst hf.key_eq
  have hk' := congrArg Prod.snd hf.key_eq
  simp only [Node.key] at hk hk'
  exact hP.write m n _ hI (by rw [hk, hk', ht, hi]; exact hn) hf hs

theorem closeJob (hP : Preserved env Ev Re I) (hI : I m) : I (DistJobManager.closeJob m) :=
  hP.flags _ _ (hP.emit m _ hI (by simp [Output.Quiet])) rfl rfl id

theorem processEvent (hP : Preserved env Ev Re I) {e : NodeEvent} (hEv : Ev e) (hI : I m) :
    I (DistJobManager.processEvent env e m) := by
  cases hl : eventLookup env e m with
  | none => simpa [DistJobManager.processEvent, hl] using hI
  | some cur =>
    have hcur := (eventLookup_some hl).2
    obtain ⟨-, ht, hi⟩ := JobNodes.jobNode_some hcur
    have hw : I (m.write (cur.updateInfo e.node)) :=
      hP.writeAt hcur ⟨rfl, rfl, by simp, le_max_left _ _⟩ rfl hI
    by_cases hx : e.eventType = .exit
    · rw [processEvent_exit hl hx]
      exact hP.closeJob hw
    by_cases hr : FlowRejected cur e
    · simpa [processEvent_rejected hl hr, hx] using hw
    obtain ⟨f, hf, hs⟩ := not_flowRejected hr
    have h₁ := hP.transition m e cur f hI hEv hcur hf hs
    rw [processEvent_accepted hl hx hf hs]
    generalize hR : shouldRelaunch env m.jobStage m.enableRelaunchNode
      (lockedNode e (cur.updateInfo e.node)) f = R
    have hRt : R.2.1.type = cur.type := by simp [← hR]
    have hRi : R.2.1.id = cur.id := by simp [← hR]
    have hRe : (lockedNode e (cur.updateInfo e.node)).Evolves R.2.1 :=
      ⟨by simp [← hR, Node.key], by simp [← hR], by simp [← hR],
        by rw [← hR, shouldRelaunch_relaunchCount]; exact Nat.le_add_right _ _⟩
    have h₂ := hP.write _ _ R.2.1 h₁ (by simp [JobNodes.jobNode_updateJobNode, hRt, hRi]) hRe
      (by simp [← hR])
    have hq : ∀ x ∈ R.2.2 ++ [.statusChange R.2.1 cur.status f.toStatus], x.Quiet := by
      intro x hx
      rcases List.mem_append.mp hx with hx | hx
      · obtain ⟨msg, rfl⟩ := shouldRelaunch_outputs env m.jobStage m.enableRelaunchNode
          (lockedNode e (cur.updateInfo e.node)) f x (hR ▸ hx)
        trivial
      · simp_all [Output.Quiet]
    have h₃ : I { m with
        jobNodes := m.jobNodes.updateJobNode R.2.1
        outputs := m.outputs ++ processNodeEvents f (lockedNode e (cur.updateInfo e.node)) ++ R.2.2 ++
          [.statusChange R.2.1 cur.status f.toStatus]
        pendingRelaunchCount :=
          m.pendingRelaunchCount + if R.1 && env.waitPendingRelaunch then 1 else 0 } :=
      hP.flags _ _ (hP.emit _ _ h₂ hq)
        (JobNodes.updateJobNode_updateJobNode _ (by simp [hRt]) (by simp [hRi])).symm
        (by simp) (by simp)
    split
    · next h1 =>
      have hd := relaunchDecision_guard (shouldRelaunch_fst.mp (hR ▸ h1)).choose_spec
      by_cases hm : R.2.1.type.hasNodeManager
      · exact hP.relaunch _ R.2.1 _ h₃ (by simp [JobNodes.jobNode_updateJobNode]) (.refl _) rfl
          (by simpa [← hR] using hd.2.2) hm
      · rwa [relaunchNode_of_not_manager _ _ (by simpa using hm)]
    · exact h₃

theorem handleTrainingFailure (hP : Preserved env Ev Re I) (t : NodeType) (i : Nat)
    (level : TrainingExceptionLevel) (hI : I m) :
    I (DistJobManager.handleTrainingFailure env t i level m) := by
  unfold DistJobManager.handleTrainingFailure
  split
  · exact hI
  · next n hn =>
    obtain ⟨-, ht, hi⟩ := JobNodes.jobNode_some hn
    have h₁ : I (m.emit (trainingFailureDecision env n level).2) := hP.emit _ _ hI fun x hx => by
      rw [trainingFailureDecision_outputs env n level x hx]
      trivial
    dsimp only
    split
    · next hd =>
      have hrl : n.relaunchable = true := by
        simp only [trainingFailureDecision_fst, Bool.and_eq_true] at hd
        exact hd.2
      by_cases hm : n.type.hasNodeManager
      · exact hP.relaunch _ n n h₁ (by simpa [ht, hi] using hn) (.refl n) rfl hrl hm
      · rwa [relaunchNode_of_not_manager _ _ (by simpa using hm)]
    · exact h₁

theorem stopLocked (hP : Preserved env Ev Re I) (hI : I m) : I (DistJobManager.stopLocked env m).1 := by
  have hall := stored_of_sublist (List.Sublist.refl m.jobNodes.all)
  have h₁ := hP.updateJobNodes stopNode id (fun _ => ⟨rfl, rfl, by simp [stopNode], le_rfl⟩) (fun _ => rfl)
    _ hI hall.1 hall.2
  unfold DistJobManager.stopLocked
  dsimp only
  split
  · exact h₁
  · next workers hw =>
    obtain ⟨hst, hnd⟩ := JobNodes.stored_nodes (m.jobNodes.updateJobNodes (m.jobNodes.all.map stopNode))
      .worker
    simp only [JobNodes.nodes, hw, Option.getD_some] at hst hnd
    exact hP.updateJobNodes (fun n => { n with evalTime := env.getWorkerEvalTime n.id }) id
      (fun _ => ⟨rfl, rfl, id, le_rfl⟩) (fun _ => rfl) workers h₁ hst hnd

theorem stop (hP : Preserved env Ev Re I) (hI : I m) : I (DistJobManager.stop env m) := by
  unfold DistJobManager.stop
  split_ifs
  · exact hI
  · have h₁ := hP.stopLocked (hP.flags m { m with enableRelaunchNode := false } hI rfl rfl (by simp))
    rcases h : DistJobManager.stopLocked env { m with enableRelaunchNode := false } with
      ⟨m₁, _ | _⟩ <;> rw [h] at h₁
    · exact h₁
    · exact hP.flags m₁ _ h₁ rfl rfl id

theorem releaseAll (hP : Preserved env Ev Re I) (P : Node → Bool) (hI : I m) :
    I { m with
      jobNodes := m.jobNodes.updateJobNodes
        ((m.jobNodes.all.filter P).map fun n => { n with isReleased := true }) } := by
  have hst := stored_of_sublist (List.filter_sublist (p := P) m.jobNodes.all)
  exact hP.updateJobNodes (fun n => { n with isReleased := true }) id (fun _ => ⟨rfl, rfl, id, le_rfl⟩)
    (fun _ => rfl) _ hI hst.1 hst.2

theorem clearExitedNodes (hP : Preserved env Ev Re I) (hI : I m) :
    I (DistJobManager.clearExitedNodes env m) := by
  have h₁ := hP.releaseAll (fun n => !n.isReleased && n.exited) hI
  simp only [DistJobManager.clearExitedNodes]
  split_ifs
  · exact hI
  · exact h₁
  · exact hP.emit _ _ h₁ (by simp [Output.Quiet])

theorem clearAllNodes (hP : Preserved env Ev Re I) (hI : I m) : I (DistJobManager.clearAllNodes m) :=
  hP.emit _ _ (hP.releaseAll (fun n => !n.isReleased) hI) (by simp [Output.Quiet])

theorem removeTrainingNodes (hP : Preserved env Ev Re I) (hI : I m) :
    I (DistJobManager.removeTrainingNodes m) := by
  unfold DistJobManager.removeTrainingNodes
  split
  · next workers pss hw hps =>
    have hst := stored_of_sublist ((List.filter_sublist (p := fun n =>
      (n.status = .running || n.status = .pending) && !n.isReleased) _).trans
        (JobNodes.workers_ps_sublist hw hps))
    refine hP.emit _ _ (updateJobNodes_of_write removedNode id (fun _ => rfl)
      (fun n => n.status = .running ∨ n.status = .pending)
      (fun m n hI hn h => hP.remove m n hI h hn) _ m hI (fun n hn => ⟨?_, hst.1 n hn⟩) hst.2)
      (by simp [Output.Quiet])
    simpa using ((Bool.and_eq_true _ _).mp (List.mem_filter.mp hn).2).1
  · exact hI

theorem updateHangTime (hP : Preserved env Ev Re I) (t : NodeType) (i now : Nat) (hI : I m) :
    I (DistJobManager.updateHangTime env t i now m) := by
  unfold DistJobManager.updateHangTime
  split
  · exact hI
  · next n hn =>
    split
    · exact hI
    · next n' hw =>
      obtain ⟨_, rfl⟩ := resourceUsageWrite_some hw
      exact hP.writeAt hn ⟨rfl, rfl, id, le_rfl⟩ rfl hI

theorem updateNodeResourceUsage (hP : Preserved env Ev Re I) (t : NodeType) (i : Nat) (cpu : ℚ)
    (memory : Nat) (gpuStats : List GPUStats) (now : Nat) (hI : I m) :
    I (DistJobManager.updateNodeResourceUsage env t i cpu memory gpuStats now m) := by
  unfold DistJobManager.updateNodeResourceUsage
  split
  · exact hI
  · next n hn => exact hP.updateHangTime t i now (hP.writeAt hn ⟨rfl, rfl, id, le_rfl⟩ rfl hI)

theorem updateNodeParalConfig (hP : Preserved env Ev Re I) (t : NodeType) (i : Nat) (config : String)
    (hI : I m) : I (DistJobManager.updateNodeParalConfig t i config m) := by
  unfold DistJobManager.updateNodeParalConfig
  split
  · exact hI
  · next n hn => exact hP.writeAt hn ⟨rfl, rfl, id, le_rfl⟩ rfl hI

theorem collectNodeHeartBeat (hP : Preserved env Ev Re I) (t : NodeType) (i : Nat) (timestamp : Nat)
    (hI : I m) : I (DistJobManager.collectNodeHeartBeat t i timestamp m) := by
  unfold DistJobManager.collectNodeHeartBeat
  split
  · exact hI
  · next n hn => exact hP.writeAt hn ⟨rfl, rfl, id, le_rfl⟩ rfl hI

theorem processReportedNodeEvent (hP : Preserved env Ev Re I) (e : NodeEvent) (hI : I m) :
    I (DistJobManager.processReportedNodeEvent e m) := by
  have h₁ : I (match m.jobNodes.jobNode e.node.type e.node.id with
      | some n => m.write { n with reportedStatus := some e.eventType }
      | none => m) := by
    split
    · next n hn => exact hP.writeAt hn ⟨rfl, rfl, id, le_rfl⟩ rfl hI
    · exact hI
  unfold DistJobManager.processReportedNodeEvent
  split_ifs
  · exact hP.flags _ _ h₁ rfl rfl id
  · exact h₁

theorem listedNodeUpdate (hP : Preserved env Ev Re I) {node : Node} (hRe : Re node) (hI : I m) :
    I (DistJobManager.listedNodeUpdate node m) := by
  have h₁ : I (if m.jobNodes.jobNode node.type node.id = none ∧ node.status ≠ .deleted then m.write node
      else m) := by
    split_ifs with h
    · exact hP.reAdd m node hI h.1 h.2 hRe
    · exact hI
  unfold DistJobManager.listedNodeUpdate
  dsimp only
  generalize (if m.jobNodes.jobNode node.type node.id = none ∧ node.status ≠ .deleted then m.write node
      else m) = m₁ at h₁ ⊢
  split
  · next x hx =>
    split_ifs
    · exact hP.writeAt hx ⟨rfl, rfl, id, le_rfl⟩ rfl h₁
    · exact h₁
  · exact h₁

section Internal

variable (hint : ∀ e : NodeEvent, e.Synthesized → Ev e)
include hint

theorem processListNodes (hP : Preserved env Ev Re I) {nodes : List Node}
    (hl : ∀ n ∈ nodes, Ev (listedEvent n) ∧ Re n) (hI : I m) :
    I (DistJobManager.processListNodes env nodes m).1 :=
  processListNodes_induction I (fun _ e h he => hP.processEvent (hint e he) h)
    (fun _ n hn h => hP.processEvent (hl n hn).1 (hP.listedNodeUpdate (hl n hn).2 h)) m hI

theorem processNodeAction (hP : Preserved env Ev Re I) (t : NodeType) (i : Nat) (hI : I m) :
    I (DistJobManager.processNodeAction env t i m) := by
  unfold DistJobManager.processNodeAction
  split
  · exact hI
  · exact hP.processEvent (hint _ ⟨rfl, .inl rfl⟩) hI

theorem monitorNodeHeartBeat (hP : Preserved env Ev Re I) (now : Nat) (hI : I m) :
    I (DistJobManager.monitorNodeHeartBeat env now m) := by
  unfold DistJobManager.monitorNodeHeartBeat getDeadNodeEvent
  suffices h : ∀ (l : List Node) m₁, I m₁ → I ((l.map fun n =>
      (⟨.deleted, { n with status := .failed, exitReason := some .noHeartbeat }⟩ : NodeEvent)).foldl
        (fun m e => DistJobManager.processEvent env e m) m₁) by
    refine h _ _ (hP.emit m _ hI ?_)
    simp only [List.mem_flatMap, List.mem_append, List.mem_singleton, forall_exists_index, and_imp]
    rintro x n - (hx | rfl)
    · rw [processError_outputs env n _ x hx]
      trivial
    · trivial
  intro l
  induction l with
  | nil => exact fun _ h => h
  | cons n l ih => exact fun m₁ h => ih _ (hP.processEvent (hint _ ⟨rfl, .inl rfl⟩) h)

/-- What a call needs of `Ev` and `Re`; `update_node_service_addr` is left out. -/
def Admits (Ev : NodeEvent → Prop) (Re : Node → Prop) (op : Op) : Prop :=
  (∀ e ∈ op.events, Ev e) ∧ (∀ n ∈ op.listed, Re n) ∧ op.isServiceAddr = false

theorem step (hP : Preserved env Ev Re I) {op : Op} (hop : Admits Ev Re op) (hI : I m) :
    I (DistJobManager.step env m op) := by
  obtain ⟨hev, hre, hsa⟩ := hop
  unfold DistJobManager.step
  split_ifs
  · exact hI
  · cases op with
    | processEvent e => exact hP.processEvent (hev e (.head _)) hI
    | processNodeAction t i => exact hP.processNodeAction hint t i hI
    | monitorNodeHeartBeat now => exact hP.monitorNodeHeartBeat hint now hI
    | handleTrainingFailure t i level => exact hP.handleTrainingFailure t i level hI
    | stop => exact hP.stop hI
    | clearExitedNodes => exact hP.clearExitedNodes hI
    | clearAllNodes => exact hP.clearAllNodes hI
    | removeTrainingNodes => exact hP.removeTrainingNodes hI
    | updateNodeResourceUsage t i cpu memory gpuStats now =>
      exact hP.updateNodeResourceUsage t i cpu memory gpuStats now hI
    | updateNodeServiceAddr => simp [Op.isServiceAddr] at hsa
    | updateNodeParalConfig t i config => exact hP.updateNodeParalConfig t i config hI
    | collectNodeHeartBeat t i timestamp => exact hP.collectNodeHeartBeat t i timestamp hI
    | processReportedNodeEvent e => exact hP.processReportedNodeEvent e hI
    | processListNodes nodes =>
      exact hP.processListNodes hint (fun n hn => ⟨hev _ (List.mem_map_of_mem _ hn), hre n hn⟩) hI

theorem run (hP : Preserved env Ev Re I) :
    ∀ (ops : List Op) (m : DistributedJobManager), (∀ op ∈ ops, Admits Ev Re op) → I m →
      I (DistJobManager.run env m ops)
  | [], _, _, hI => hI
  | op :: ops, m, hops, hI => by
    rw [run_cons]
    exact run hP ops _ (fun op h => hops op (.tail _ h)) (hP.step hint (hops op (.head _)) hI)

end Internal

end Preserved

/-- An invariant kept by write-backs of evolved nodes, re-adds, and outputs but relaunches. -/
structure WritePreserved (env : ManagerEnv) (Re : Node → Prop) (I : DistributedJobManager → Prop) :
    Prop where
  write : ∀ m n₀ n, I m → m.jobNodes.jobNode n.type n.id = some n₀ → n₀.Evolves n → I (m.write n)
  emit : ∀ m o, I m → relaunchedNodes o = [] → I (m.emit o)
  relaunch : ∀ m n₀ n, I m → m.jobNodes.jobNode n.type n.id = some n₀ → n₀.Evolves n →
    n₀.relaunchable = true → n.type.hasNodeManager = true → I (relaunchNode env n m)
  flags : ∀ m m', I m → m'.jobNodes = m.jobNodes → m'.outputs = m.outputs →
    (m'.enableRelaunchNode = true → m.enableRelaunchNode = true) → I m'
  reAdd : ∀ m n, I m → m.jobNodes.jobNode n.type n.id = none → Re n → I (m.write n)

namespace WritePreserved

variable {env : ManagerEnv} {Re : Node → Prop} {I : DistributedJobManager → Prop}
  {m : DistributedJobManager}

theorem preserved (h : WritePreserved env Re I) : Preserved env (fun _ => True) Re I where
  write m n₀ n hI hn he _ := h.write m n₀ n hI hn he
  transition m e cur _ hI _ hcur _ _ := by
    obtain ⟨-, ht, hi⟩ := JobNodes.jobNode_some hcur
    exact h.emit _ _ (h.write _ cur _ hI (by simpa [ht, hi] using hcur) ⟨rfl, rfl, id, le_max_left _ _⟩)
      (by simp)
  remove m n hI hn _ := h.write m n _ hI hn ⟨rfl, rfl, by simp [removedNode], le_rfl⟩
  emit m o hI ho := h.emit m o hI (relaunchedNodes_of_quiet ho)
  relaunch m n₀ n hI hn he _ hr hm := h.relaunch m n₀ n hI hn he hr hm
  flags := h.flags
  reAdd m n hI hn _ hRe := h.reAdd m n hI hn hRe

theorem step (h : WritePreserved env Re I) (op : Op) (hre : ∀ n ∈ op.listed, Re n) (hI : I m) :
    I (DistJobManager.step env m op) := by
  cases hsa : op.isServiceAddr
  · exact h.preserved.step (fun _ _ => trivial) ⟨fun _ _ => trivial, hre, hsa⟩ hI
  · cases op <;> simp only [Op.isServiceAddr, Bool.false_eq_true] at hsa
    simp only [DistJobManager.step, Op.exec]
    split_ifs
    · exact hI
    · unfold DistJobManager.updateNodeServiceAddr
      split
      · exact hI
      · next n hn =>
        obtain ⟨-, ht, hi⟩ := JobNodes.jobNode_some hn
        exact h.write m n _ hI (by rw [← ht, ← hi] at hn; exact hn) ⟨rfl, rfl, id, le_rfl⟩

theorem run (h : WritePreserved env Re I) :
    ∀ (ops : List Op) (m : DistributedJobManager), (∀ op ∈ ops, ∀ n ∈ op.listed, Re n) → I m →
      I (DistJobManager.run env m ops)
  | [], _, _, hI => hI
  | op :: ops, m, hre, hI => by
    rw [run_cons]
    exact run h ops _ (fun op h => hre op (.tail _ h)) (h.step op (hre op (.head _)) hI)

end WritePreserved

end DistJobManager
