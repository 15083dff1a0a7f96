import DistJobManager.Races

/-! The nodes the scale plans launch: `_relaunch_node` launches under the next id of the type and
no call drops a key, so under every interleaving each launched node has a key of its own. -/

namespace DistJobManager

@[simp] def Output.launched : Output → List Node
  | .scale p => p.launchNodes
  | _ => []

def launchedNodes (o : List Output) : List Node := o.flatMap Output.launched

@[simp] theorem launchedNodes_nil : launchedNodes [] = [] := rfl

@[simp] theorem launchedNodes_cons (x : Output) (o : List Output) :
    launchedNodes (x :: o) = x.launched ++ launchedNodes o := rfl

@[simp] theorem launchedNodes_append (o o' : List Output) :
    launchedNodes (o ++ o') = launchedNodes o ++ launchedNodes o' := by
  simp [launchedNodes]

theorem launchedNodes_eq_nil {o : List Output} (h : ∀ x ∈ o, x.launched = []) :
    launchedNodes o = [] := by
  simpa [launchedNodes] using h

@[simp] theorem launchedNodes_processNodeEvents (flow : NodeStateFlow) (node : Node) :
    launchedNodes (processNodeEvents flow node) = [] := by
  unfold processNodeEvents
  split_ifs <;> rfl

@[simp] theorem launchedNodes_shouldRelaunch (env : ManagerEnv) (stage : JobStage) (enable : Bool)
    (node : Node) (flow : NodeStateFlow) :
    launchedNodes (shouldRelaunch env stage enable node flow).2.2 = [] :=
  launchedNodes_eq_nil fun x hx => by
    obtain ⟨msg, rfl⟩ := shouldRelaunch_outputs env stage enable node flow x hx
    rfl

@[simp] theorem launchedNodes_trainingFailureDecision (env : ManagerEnv) (n : Node)
    (level : TrainingExceptionLevel) : launchedNodes (trainingFailureDecision env n level).2 = [] :=
  launchedNodes_eq_nil fun x hx => by rw [trainingFailureDecision_outputs env n level x hx]; rfl

@[simp] theorem launchedNodes_getDeadNodeEvent (env : ManagerEnv) (now window : Nat) (s : JobNodes) :
    launchedNodes (getDeadNodeEvent env now window s).2 = [] :=
  launchedNodes_eq_nil fun x hx => by
    obtain ⟨n, -, hx⟩ := List.mem_flatMap.mp hx
    rcases List.mem_append.mp hx with hx | hx
    · rw [processError_outputs env n _ x hx]
      rfl
    · rw [List.mem_singleton.mp hx]
      rfl

theorem stopLocked_keysIn (env : ManagerEnv) (m : DistributedJobManager) :
    m.jobNodes.KeysIn (stopLocked env m).1.jobNodes := by
  unfold stopLocked
  dsimp only
  split
  · exact JobNodes.KeysIn.updateJobNodes _
  · exact (JobNodes.KeysIn.updateJobNodes _).trans (JobNodes.KeysIn.updateJobNodes _)

/-- Keys of `s₀` stay stored; launched nodes are stored, with distinct keys none of `s₀`. -/
structure LaunchesFresh (s₀ : JobNodes) (m : DistributedJobManager) : Prop where
  keys : s₀.KeysIn m.jobNodes
  nodup : ((launchedNodes m.outputs).map Node.key).Nodup
  stored : ∀ n ∈ launchedNodes m.outputs, (m.jobNodes.jobNode n.type n.id).isSome
  fresh : ∀ n ∈ launchedNodes m.outputs, s₀.jobNode n.type n.id = none

namespace LaunchesFresh

variable {s₀ : JobNodes} {m m' : DistributedJobManager}

theorem of_keysIn (h : LaunchesFresh s₀ m) (hk : m.jobNodes.KeysIn m'.jobNodes)
    (ho : launchedNodes m'.outputs = launchedNodes m.outputs) : LaunchesFresh s₀ m' where
  keys := h.keys.trans hk
  nodup := ho ▸ h.nodup
  stored n hn := hk _ _ (h.stored n (ho ▸ hn))
  fresh n hn := h.fresh n (ho ▸ hn)

theorem write (h : LaunchesFresh s₀ m) (n : Node) : LaunchesFresh s₀ (m.write n) :=
  h.of_keysIn (JobNodes.KeysIn.updateJobNode n) rfl

theorem updateJobNodes (h : LaunchesFresh s₀ m) (l : List Node) :
    LaunchesFresh s₀ { m with jobNodes := m.jobNodes.updateJobNodes l } :=
  h.of_keysIn (JobNodes.KeysIn.updateJobNodes l) rfl

theorem emit (h : LaunchesFresh s₀ m) {o : List Output} (ho : launchedNodes o = []) :
    LaunchesFresh s₀ (m.emit o) :=
  h.of_keysIn (JobNodes.KeysIn.refl _) (by simp [ho])

/-- Storing a node under a key no stored node has, and sending a plan that launches it. -/
theorem launch (h : LaunchesFresh s₀ m) (launched : Node)
    (hnew : m.jobNodes.jobNode launched.type launched.id = none)
    (hk : (m.jobNodes.updateJobNode launched).KeysIn m'.jobNodes)
    (ho : launchedNodes m'.outputs = launchedNodes m.outputs ++ [launched]) : LaunchesFresh s₀ m' := by
  have hstored : (m'.jobNodes.jobNode launched.type launched.id).isSome :=
    hk _ _ (by simp [JobNodes.jobNode_updateJobNode])
  have hold : ∀ n ∈ launchedNodes m.outputs, n.key ≠ launched.key := fun n hn he => by
    have hs := h.stored n hn
    simp only [Node.key, Prod.mk.injEq] at he
    rw [he.1, he.2, hnew] at hs
    cases hs
  have hfresh : s₀.jobNode launched.type launched.id = none :=
    Option.not_isSome_iff_eq_none.mp fun hs => by simpa [hnew] using h.keys _ _ hs
  refine ⟨h.keys.trans ((JobNodes.KeysIn.updateJobNode launched).trans hk), ?_, ?_, ?_⟩ <;> rw [ho]
  · simpa [List.nodup_append] using ⟨h.nodup, fun n hn he => hold n hn he⟩
  · simpa [or_imp, forall_and, hstored] using
      fun n hn => hk _ _ ((JobNodes.KeysIn.updateJobNode launched) _ _ (h.stored n hn))
  · simpa [or_imp, forall_and, hfresh] using h.fresh

theorem relaunchNode (h : LaunchesFresh s₀ m) (env : ManagerEnv) (node : Node) :
    LaunchesFresh s₀ (DistJobManager.relaunchNode env node m) := by
  cases hm : node.type.hasNodeManager
  · rwa [relaunchNode_of_not_manager env m hm]
  · rw [relaunchNode_of_manager env m hm]
    exact h.launch (({ node with relaunchable := false } : Node).relaunchedAs (m.jobNodes.nextId node.type))
      (JobNodes.jobNode_nextId _ _) (JobNodes.KeysIn.updateJobNode _) (by simp)

theorem listedNodeUpdate (h : LaunchesFresh s₀ m) (node : Node) :
    LaunchesFresh s₀ (DistJobManager.listedNodeUpdate node m) := by
  have h₁ : LaunchesFresh s₀ (if m.jobNodes.jobNode node.type node.id = none ∧ node.status ≠ .deleted
      then m.write node else m) := by
    split_ifs
    · exact h.write node
    · exact h
  unfold DistJobManager.listedNodeUpdate
  dsimp only
  generalize (if m.jobNodes.jobNode node.type node.id = none ∧ node.status ≠ .deleted then m.write node
      else m) = m₁ at h₁ ⊢
  split
  · split_ifs
    · exact h₁.write _
    · exact h₁
  · exact h₁

theorem updateHangTime (h : LaunchesFresh s₀ m) (env : ManagerEnv) (t : NodeType) (i now : Nat) :
    LaunchesFresh s₀ (DistJobManager.updateHangTime env t i now m) := by
  unfold DistJobManager.updateHangTime
  split
  · exact h
  · split
    · exact h
    · exact h.write _

end LaunchesFresh

section Steps

variable {s₀ : JobNodes} (env : ManagerEnv) {m : DistributedJobManager}

theorem closeJob_launchesFresh (h : LaunchesFresh s₀ m) : LaunchesFresh s₀ (closeJob m) :=
  h.of_keysIn (JobNodes.KeysIn.refl _) (by simp [closeJob])

theorem eventTransition_launchesFresh (h : LaunchesFresh s₀ m) (e : NodeEvent) :
    LaunchesFresh s₀ (eventTransition env e m).1 := by
  cases hcur : m.jobNodes.jobNode e.node.type e.node.id with
  | none => simpa [eventTransition, hcur] using h
  | some cur =>
    by_cases hr : FlowRejected cur e
    · rwa [eventTransition_rejected hcur hr]
    obtain ⟨f, hf, hs⟩ := not_flowRejected hr
    rw [eventTransition_accepted hcur hf hs]
    exact h.of_keysIn (JobNodes.KeysIn.updateJobNode _) (by simp)

theorem eventAfterLock_launchesFresh (h : LaunchesFresh s₀ m) (t : EventTransition) :
    LaunchesFresh s₀ (eventAfterLock env t m) := by
  unfold eventAfterLock
  split
  · exact h
  · next n _ =>
    have h₁ : LaunchesFresh s₀ (m.emit [.statusChange n t.oldStatus t.newStatus]) := h.emit rfl
    split_ifs
    · exact h₁.relaunchNode env _
    · exact h₁

/-- One atomic step of any call in flight keeps the launches fresh. -/
theorem Thread.step_launchesFresh (th : Thread) (h : LaunchesFresh s₀ m) :
    LaunchesFresh s₀ (th.step env m).1 := by
  induction th generalizing m with
  | processEvent e =>
    simp only [Thread.step]
    split
    · exact h
    · split_ifs
      · exact closeJob_launchesFresh (h.write _)
      · exact h.write _
  | transitionNode e =>
    have h₁ := eventTransition_launchesFresh env h e
    rcases ht : eventTransition env e m with ⟨m', _ | t⟩ <;> rw [ht] at h₁ <;>
      simpa [Thread.step, ht] using h₁
  | afterLock t => exact eventAfterLock_launchesFresh env h t
  | handleTrainingFailure t i level =>
    simp only [Thread.step]
    split
    · exact h
    · exact h.emit (launchedNodes_trainingFailureDecision env _ level)
  | relaunchNode t i =>
    simp only [Thread.step]
    split
    · exact h
    · exact h.relaunchNode env _
  | stop =>
    simp only [Thread.step]
    split_ifs
    · exact h
    · exact h.of_keysIn (JobNodes.KeysIn.refl _) rfl
  | stopLocked =>
    have h₁ := h.of_keysIn (stopLocked_keysIn env m) (congrArg launchedNodes (stopLocked_outputs env m))
    rcases hs : DistJobManager.stopLocked env m with ⟨m₁, b⟩
    rw [hs] at h₁
    simpa [Thread.step, hs] using h₁
  | stopFinish => exact h.of_keysIn (JobNodes.KeysIn.refl _) rfl
  | updateNodeResourceUsage t i cpu memory gpuStats now =>
    simp only [Thread.step]
    split
    · exact h
    · exact h.write _
  | updateHangTime t i now => exact h.updateHangTime env t i now
  | updateNodeServiceAddr t i addr =>
    simp only [Thread.step, DistJobManager.updateNodeServiceAddr]
    split
    · exact h
    · exact h.write _
  | updateNodeParalConfig t i config =>
    simp only [Thread.step, DistJobManager.updateNodeParalConfig]
    split
    · exact h
    · exact h.write _
  | processListNodes nodes => exact h
  | listFirst p rest =>
    cases rest with
    | nil => exact h
    | cons node rest =>
      simp only [Thread.step]
      split_ifs
      · exact h.listedNodeUpdate node
      · exact h
  | listSecond p ts => cases ts <;> exact h
  | visitIds p t ids ts =>
    cases ids with
    | nil => exact h
    | cons i ids =>
      simp only [Thread.step]
      split <;> exact h
  | retire p t i xs ids ts =>
    cases xs with
    | nil => exact h
    | cons x xs =>
      simp only [Thread.step]
      split <;> exact h
  | seq inner next ih _ =>
    have h₁ := ih h
    rcases hs : inner.step env m with ⟨m₁, _ | th'⟩ <;> rw [hs] at h₁ <;>
      simpa [Thread.step, hs] using h₁

theorem Sys.Reachable.launchesFresh {s s' : Sys} (hs : Sys.Reachable env s s')
    (h : LaunchesFresh s₀ s.manager) : LaunchesFresh s₀ s'.manager :=
  (hs.invariant (I := LaunchesFresh s₀) (T := fun _ => True) (fun _ => trivial)
    (fun th _ _ hm => ⟨Thread.step_launchesFresh env th hm, fun _ _ => trivial⟩) ⟨h, fun _ _ => trivial⟩).1

theorem processEvent_launchesFresh (h : LaunchesFresh s₀ m) (e : NodeEvent) :
    LaunchesFresh s₀ (processEvent env e m) := by
  unfold processEvent
  split
  · exact h
  · next cur _ =>
    have h₁ := h.write (cur.updateInfo e.node)
    have h₂ := eventTransition_launchesFresh env h₁ e
    dsimp only
    split_ifs
    · exact closeJob_launchesFresh h₁
    · rcases ht : eventTransition env e (m.write (cur.updateInfo e.node)) with
        ⟨m', _ | t⟩ <;> rw [ht] at h₂
      · exact h₂
      · exact eventAfterLock_launchesFresh env h₂ t

/-- Every call of the sequential manager keeps the launches fresh. -/
theorem exec_launchesFresh (h : LaunchesFresh s₀ m) (op : Op) : LaunchesFresh s₀ (op.exec env m) := by
  have hfold : ∀ (l : List NodeEvent) (m : DistributedJobManager), LaunchesFresh s₀ m →
      LaunchesFresh s₀ (l.foldl (fun m e => processEvent env e m) m) := by
    intro l
    induction l with
    | nil => exact fun _ h => h
    | cons e l ih => exact fun m h => ih _ (processEvent_launchesFresh env h e)
  cases op with
  | processEvent e => exact processEvent_launchesFresh env h e
  | processNodeAction t i =>
    simp only [Op.exec, processNodeAction]
    split
    · exact h
    · exact processEvent_launchesFresh env h _
  | monitorNodeHeartBeat now =>
    exact hfold _ _ (h.emit (launchedNodes_getDeadNodeEvent env now 600 m.jobNodes))
  | handleTrainingFailure t i level =>
    simp only [Op.exec, handleTrainingFailure]
    split
    · exact h
    · next n _ =>
      have h₁ := h.emit (launchedNodes_trainingFailureDecision env n level)
      split_ifs
      · exact h₁.relaunchNode env _
      · exact h₁
  | stop =>
    simp only [Op.exec, DistJobManager.stop]
    split_ifs
    · exact h
    · have h₁ := h.of_keysIn (stopLocked_keysIn env { m with enableRelaunchNode := false })
        (congrArg launchedNodes (stopLocked_outputs env _))
      rcases hs : stopLocked env { m with enableRelaunchNode := false } with ⟨m₁, _ | _⟩ <;>
        rw [hs] at h₁
      · exact h₁
      · exact h₁.of_keysIn (JobNodes.KeysIn.refl _) rfl
  | clearExitedNodes =>
    simp only [Op.exec, clearExitedNodes]
    split_ifs
    · exact h
    · exact h.updateJobNodes _
    · exact LaunchesFresh.emit (h.updateJobNodes _) (by rfl)
  | clearAllNodes => exact (h.updateJobNodes _).emit rfl
  | removeTrainingNodes =>
    simp only [Op.exec, removeTrainingNodes]
    split
    · exact LaunchesFresh.emit (h.updateJobNodes _) (by rfl)
    · exact h
  | updateNodeResourceUsage t i cpu memory gpuStats now =>
    simp only [Op.exec, updateNodeResourceUsage]
    split
    · exact h
    · exact (h.write _).updateHangTime env t i now
  | updateNodeServiceAddr t i addr =>
    simp only [Op.exec, updateNodeServiceAddr]
    split
    · exact h
    · exact h.write _
  | updateNodeParalConfig t i config =>
    simp only [Op.exec, updateNodeParalConfig]
    split
    · exact h
    · exact h.write _
  | collectNodeHeartBeat t i timestamp =>
    simp only [Op.exec, collectNodeHeartBeat]
    split
    · exact h
    · exact h.write _
  | processReportedNodeEvent e =>
    simp only [Op.exec, processReportedNodeEvent]
    have h₁ : LaunchesFresh s₀ (match m.jobNodes.jobNode e.node.type e.node.id with
        | some n => m.write { n with reportedStatus := some e.eventType }
        | none => m) := by
      split
      · exact h.write _
      · exact h
    split_ifs
    · exact h₁.of_keysIn (JobNodes.KeysIn.refl _) rfl
    · exact h₁
  | processListNodes nodes =>
    exact processListNodes_induction (LaunchesFresh s₀) (fun _ e h _ => processEvent_launchesFresh env h e)
      (fun _ n _ h => processEvent_launchesFresh env (h.listedNodeUpdate n) _) m h

theorem run_launchesFresh : ∀ (ops : List Op) {m : DistributedJobManager}, LaunchesFresh s₀ m →
    LaunchesFresh s₀ (run env m ops)
  | [], _, h => h
  | op :: ops, m, h => by
    rw [run_cons]
    refine run_launchesFresh ops ?_
    unfold step
    split_ifs
    · exact h
    · exact exec_launchesFresh env h op

end Steps

/-- From `start()`, in every sequential run and interleaving, launches have fresh keys. -/
theorem launched_nodes_have_fresh_keys (env : ManagerEnv) (args : JobArgs) (hasRunningWorkers : Bool)
    {m₀ : DistributedJobManager} (h : DistributedJobManager.start args hasRunningWorkers = some m₀) :
    ∀ m, ((∃ ops, run env m₀ ops = m) ∨ ∃ s : Sys, Sys.Reachable env ⟨m₀, []⟩ s ∧ s.manager = m) →
      ((launchedNodes m.outputs).map Node.key).Nodup ∧
      (∀ n ∈ launchedNodes m.outputs,
        m₀.jobNodes.jobNode n.type n.id = none ∧ (m.jobNodes.jobNode n.type n.id).isSome) ∧
      ∀ t i, (m₀.jobNodes.jobNode t i).isSome → (m.jobNodes.jobNode t i).isSome := by
  have h₀ : LaunchesFresh m₀.jobNodes m₀ := by
    have ho : launchedNodes m₀.outputs = [] := by
      unfold DistributedJobManager.start at h
      obtain ⟨c, -, rfl⟩ := Option.map_eq_some'.mp h
      split_ifs <;> rfl
    exact ⟨JobNodes.KeysIn.refl _, by simp [ho], by simp [ho], by simp [ho]⟩
  have hI : ∀ m, ((∃ ops, run env m₀ ops = m) ∨ ∃ s : Sys, Sys.Reachable env ⟨m₀, []⟩ s ∧ s.manager = m) →
      LaunchesFresh m₀.jobNodes m := by
    rintro m (⟨ops, rfl⟩ | ⟨s, hs, rfl⟩)
    · exact run_launchesFresh env ops h₀
    · exact hs.launchesFresh env h₀
  intro m hm
  have hI := hI m hm
  exact ⟨hI.nodup, fun n hn => ⟨hI.fresh n hn, hI.stored n hn⟩, hI.keys⟩

theorem launched_nodes_have_fresh_keys_double_relaunch :
    ∃ m₀, DistributedJobManager.start oneWorkerArgs false = some m₀ ∧
      ∃ s : Sys, Sys.Reachable goneEnv ⟨m₀, []⟩ s ∧
        (launchedNodes s.manager.outputs).map Node.key = [(.worker, 1), (.worker, 2)] ∧
        ((launchedNodes s.manager.outputs).map Node.key).Nodup ∧
        (∀ n ∈ launchedNodes s.manager.outputs,
          m₀.jobNodes.jobNode n.type n.id = none ∧ (s.manager.jobNodes.jobNode n.type n.id).isSome) ∧
        ∀ t i, (m₀.jobNodes.jobNode t i).isSome → (s.manager.jobNodes.jobNode t i).isSome := by
  obtain ⟨m₀, h₀, s, hs, hkeys⟩ : ∃ m₀, DistributedJobManager.start oneWorkerArgs false = some m₀ ∧
      ∃ s, Sys.Reachable goneEnv ⟨m₀, []⟩ s ∧
        (launchedNodes s.manager.outputs).map Node.key = [(.worker, 1), (.worker, 2)] :=
    ⟨_, rfl, Sys.reachable_of_runSchedule_any
      [.call (.processEvent failedWorker), .advance 0, .advance 0,
        .call (.handleTrainingFailure .worker 0 .nodeError), .advance 1, .advance 1, .advance 0]
      (by decide)⟩
  exact ⟨m₀, h₀, s, hs, hkeys,
    launched_nodes_have_fresh_keys goneEnv oneWorkerArgs false h₀ s.manager (.inr ⟨s, hs, rfl⟩)⟩

end DistJobManager
