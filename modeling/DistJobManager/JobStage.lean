import DistJobManager.RelaunchPolicy

/-! The job stage: only a reported successful exit moves it, to `JOB_STOPPING`, and then the table
of `_should_relaunch` refuses every relaunch; `handle_training_failure` does not read it. -/

namespace DistJobManager

section Stage

variable {env : ManagerEnv} {m : DistributedJobManager}

@[simp] theorem relaunchNode_jobStage (node : Node) : (relaunchNode env node m).jobStage = m.jobStage := by
  unfold relaunchNode
  split <;> rfl

@[simp] theorem relaunchNode_enableRelaunchNode (node : Node) :
    (relaunchNode env node m).enableRelaunchNode = m.enableRelaunchNode := by
  unfold relaunchNode
  split <;> rfl

theorem eventTransition_flags (env : ManagerEnv) (e : NodeEvent) (m : DistributedJobManager) :
    (eventTransition env e m).1.jobStage = m.jobStage ∧
      (eventTransition env e m).1.enableRelaunchNode = m.enableRelaunchNode := by
  unfold eventTransition
  split
  · exact ⟨rfl, rfl⟩
  · split
    · exact ⟨rfl, rfl⟩
    · split_ifs
      · exact ⟨rfl, rfl⟩
      · dsimp only
        split <;> exact ⟨rfl, rfl⟩

theorem processEvent_flags (e : NodeEvent) :
    (processEvent env e m).jobStage = m.jobStage ∧
      (processEvent env e m).enableRelaunchNode = m.enableRelaunchNode := by
  unfold processEvent
  split
  · exact ⟨rfl, rfl⟩
  · next cur _ =>
    have h := eventTransition_flags env e (m.write (cur.updateInfo e.node))
    split_ifs
    · exact ⟨rfl, rfl⟩
    · dsimp only
      rcases ht : eventTransition env e (m.write (cur.updateInfo e.node)) with ⟨m', _ | t⟩ <;>
        rw [ht] at h <;> dsimp only at h ⊢
      · exact h
      · unfold eventAfterLock
        split
        · exact h
        · split_ifs <;> simpa using h

@[simp] theorem processEvent_jobStage (e : NodeEvent) : (processEvent env e m).jobStage = m.jobStage :=
  (processEvent_flags e).1

@[simp] theorem processEvent_enableRelaunchNode (e : NodeEvent) :
    (processEvent env e m).enableRelaunchNode = m.enableRelaunchNode :=
  (processEvent_flags e).2

theorem foldl_processEvent_jobStage (l : List NodeEvent) (m : DistributedJobManager) :
    (l.foldl (fun m e => processEvent env e m) m).jobStage = m.jobStage := by
  induction l generalizing m with
  | nil => rfl
  | cons e l ih => rw [List.foldl_cons, ih, processEvent_jobStage]

theorem stopLocked_jobStage (m : DistributedJobManager) : (stopLocked env m).1.jobStage = m.jobStage := by
  unfold stopLocked
  dsimp only
  split <;> rfl

theorem stop_jobStage : (stop env m).jobStage = m.jobStage := by
  unfold stop
  split_ifs
  · rfl
  · have h : (stopLocked env { m with enableRelaunchNode := false }).1.jobStage = m.jobStage :=
      stopLocked_jobStage _
    rcases hs : stopLocked env { m with enableRelaunchNode := false } with ⟨m₁, _ | _⟩ <;>
      rw [hs] at h <;> exact h

@[simp] theorem listedNodeUpdate_jobStage (node : Node) : (listedNodeUpdate node m).jobStage = m.jobStage := by
  unfold listedNodeUpdate
  dsimp only
  split <;> split_ifs <;> rfl

@[simp] theorem listedNodeUpdate_outputs (node : Node) : (listedNodeUpdate node m).outputs = m.outputs := by
  unfold listedNodeUpdate
  dsimp only
  split <;> split_ifs <;> rfl

theorem processListNodes_jobStage (nodes : List Node) :
    (processListNodes env nodes m).1.jobStage = m.jobStage :=
  processListNodes_induction (fun m' => m'.jobStage = m.jobStage)
    (fun _ _ h _ => (processEvent_jobStage _).trans h)
    (fun _ _ _ h => (processEvent_jobStage _).trans ((listedNodeUpdate_jobStage _).trans h)) m rfl

/-- Every call leaves the stage, but a report of a successful exit, which sets `JOB_STOPPING`. -/
theorem exec_jobStage (env : ManagerEnv) (op : Op) (m : DistributedJobManager) :
    (op.exec env m).jobStage = m.jobStage ∨ (op.exec env m).jobStage = .jobStopping := by
  cases op with
  | processReportedNodeEvent e =>
    simp only [Op.exec, processReportedNodeEvent]
    split_ifs
    · exact .inr rfl
    · left
      split <;> rfl
  | processListNodes nodes => exact .inl (processListNodes_jobStage nodes)
  | _ =>
    left
    simp only [Op.exec, processNodeAction, monitorNodeHeartBeat, handleTrainingFailure,
      clearExitedNodes, clearAllNodes, removeTrainingNodes, updateNodeResourceUsage, updateHangTime,
      updateNodeServiceAddr, updateNodeParalConfig, collectNodeHeartBeat]
    repeat' split
    all_goals simp [foldl_processEvent_jobStage, stop_jobStage]

theorem step_jobStage_stopping (env : ManagerEnv) (hs : m.jobStage = .jobStopping) (op : Op) :
    (step env m op).jobStage = .jobStopping := by
  unfold step
  split_ifs
  · exact hs
  · rcases exec_jobStage env op m with h | h <;> rw [h]
    exact hs

end Stage

section Relaunches

variable {env : ManagerEnv} {m : DistributedJobManager}

/-- No call takes an output back. -/
theorem outputsFrom_writePreserved (env : ManagerEnv) (o : List Output) :
    WritePreserved env (fun _ => True) fun m => o <+: m.outputs where
  write _ _ _ h _ _ := h
  emit _ _ h _ := h.trans (List.prefix_append _ _)
  relaunch _ _ n h _ _ _ _ := h.trans (relaunchNode_outputs_extend env n _)
  flags _ _ h _ ho _ := ho ▸ h
  reAdd _ _ h _ _ := h

theorem relaunchedNodes_of_extend {m' : DistributedJobManager} (h : m.outputs <+: m'.outputs) :
    relaunchedNodes m'.outputs = relaunchedNodes m.outputs ++ relaunchedNodes (sentBy m m') := by
  obtain ⟨o, ho⟩ := h
  simp [sentBy, ← ho]

/-- The decision table refuses every relaunch while the job stops. -/
theorem relaunchDecision_stopping (env : ManagerEnv) (enable : Bool) (node : Node)
    (flow : NodeStateFlow) (oom : Bool) :
    relaunchDecision env .jobStopping enable node flow ≠ .relaunch oom := by
  unfold relaunchDecision
  simp only [if_true]
  split <;> simp

theorem relaunchedNodes_processEvent_stopping (hs : m.jobStage = .jobStopping) (e : NodeEvent) :
    relaunchedNodes (processEvent env e m).outputs = relaunchedNodes m.outputs := by
  rw [relaunchedNodes_of_extend ((outputsFrom_writePreserved env m.outputs).preserved.processEvent
    trivial (List.prefix_refl _)), List.append_right_eq_self, List.eq_nil_iff_forall_not_mem]
  intro n hn
  obtain ⟨cur, f, -, -, -, -, h1, -⟩ := relaunched_processEvent hn
  obtain ⟨oom, hd⟩ := shouldRelaunch_fst.mp h1
  rw [hs] at hd
  exact relaunchDecision_stopping env _ _ _ oom hd

theorem relaunchedNodes_getDeadNodeEvent (now window : Nat) (s : JobNodes) :
    relaunchedNodes (getDeadNodeEvent env now window s).2 = [] := by
  refine List.filterMap_eq_nil_iff.mpr fun x hx => ?_
  obtain ⟨n, -, hx⟩ := List.mem_flatMap.mp hx
  rcases List.mem_append.mp hx with hx | hx
  · rw [processError_outputs env n _ x hx]
    rfl
  · rw [List.mem_singleton.mp hx]
    rfl

theorem relaunchedNodes_monitorNodeHeartBeat_stopping (hs : m.jobStage = .jobStopping) (now : Nat) :
    relaunchedNodes (monitorNodeHeartBeat env now m).outputs = relaunchedNodes m.outputs := by
  have hfold : ∀ (l : List NodeEvent) (m : DistributedJobManager), m.jobStage = .jobStopping →
      relaunchedNodes (l.foldl (fun m e => processEvent env e m) m).outputs = relaunchedNodes m.outputs := by
    intro l
    induction l with
    | nil => exact fun _ _ => rfl
    | cons e l ih =>
      intro m hs
      rw [List.foldl_cons, ih _ (by rw [processEvent_jobStage, hs]), relaunchedNodes_processEvent_stopping hs]
  exact (hfold _ (m.emit (getDeadNodeEvent env now 600 m.jobNodes).2) hs).trans
    (by simp [relaunchedNodes_getDeadNodeEvent])

def Op.isTrainingFailure : Op → Bool
  | .handleTrainingFailure _ _ _ => true
  | _ => false

theorem relaunchedNodes_exec_stopping (hs : m.jobStage = .jobStopping) (op : Op)
    (hop : op.isTrainingFailure = false) :
    relaunchedNodes (op.exec env m).outputs = relaunchedNodes m.outputs := by
  cases op with
  | processEvent e => exact relaunchedNodes_processEvent_stopping hs e
  | processNodeAction t i =>
    simp only [Op.exec, processNodeAction]
    split
    · rfl
    · exact relaunchedNodes_processEvent_stopping hs _
  | monitorNodeHeartBeat now => exact relaunchedNodes_monitorNodeHeartBeat_stopping hs now
  | handleTrainingFailure => simp [Op.isTrainingFailure] at hop
  | stop => simp [Op.exec]
  | processListNodes nodes =>
    have h : (processListNodes env nodes m).1.jobStage = .jobStopping ∧
        relaunchedNodes (processListNodes env nodes m).1.outputs = relaunchedNodes m.outputs :=
      processListNodes_induction
        (fun m' => m'.jobStage = .jobStopping ∧ relaunchedNodes m'.outputs = relaunchedNodes m.outputs)
        (fun m' e h _ => ⟨(processEvent_jobStage e).trans h.1,
          (relaunchedNodes_processEvent_stopping h.1 e).trans h.2⟩)
        (fun m' n _ h => by
          have hs' : (listedNodeUpdate n m').jobStage = .jobStopping :=
            (listedNodeUpdate_jobStage n).trans h.1
          refine ⟨(processEvent_jobStage _).trans hs', ?_⟩
          rw [relaunchedNodes_processEvent_stopping hs', listedNodeUpdate_outputs, h.2]) m ⟨hs, rfl⟩
    exact h.2
  | _ =>
    simp only [Op.exec, clearExitedNodes, clearAllNodes, removeTrainingNodes, updateNodeResourceUsage,
      updateHangTime, updateNodeServiceAddr, updateNodeParalConfig, collectNodeHeartBeat,
      processReportedNodeEvent]
    repeat' split
    all_goals simp

end Relaunches

/-- Once the job stops, only `handle_training_failure` relaunches a node. -/
theorem stopping_job_relaunches_only_on_node_error (env : ManagerEnv) (m : DistributedJobManager)
    (hs : m.jobStage = .jobStopping) :
    (∀ ops, (run env m ops).jobStage = .jobStopping) ∧
    (∀ ops, (∀ op ∈ ops, op.isTrainingFailure = false) →
      relaunchedNodes (run env m ops).outputs = relaunchedNodes m.outputs) ∧
    ∀ t i n, m.jobNodes.jobNode t i = some n → n.isReleased = false → n.relaunchable = true →
      n.type.hasNodeManager = true →
      relaunchedNodes (handleTrainingFailure env t i .nodeError m).outputs =
        relaunchedNodes m.outputs ++ [n] := by
  have hrun : ∀ ops (m : DistributedJobManager), m.jobStage = .jobStopping →
      (run env m ops).jobStage = .jobStopping ∧ ((∀ op ∈ ops, op.isTrainingFailure = false) →
        relaunchedNodes (run env m ops).outputs = relaunchedNodes m.outputs) := by
    intro ops
    induction ops with
    | nil => exact fun _ hs => ⟨hs, fun _ => rfl⟩
    | cons op ops ih =>
      intro m hs
      have ih := ih _ (step_jobStage_stopping env hs op)
      refine ⟨ih.1, fun hops => ?_⟩
      rw [run_cons, ih.2 fun o ho => hops o (.tail _ ho), step]
      split_ifs
      · rfl
      · exact relaunchedNodes_exec_stopping hs op (hops op (.head _))
  refine ⟨fun ops => (hrun ops m hs).1, fun ops => (hrun ops m hs).2, fun t i n hn hr hrl hm => ?_⟩
  have hd : (trainingFailureDecision env n .nodeError).1 = true := by
    simp [trainingFailureDecision_fst, hr, hrl]
  simp [handleTrainingFailure, hn, hd, relaunchNode_of_manager _ _ hm]

theorem stopping_job_relaunches_only_on_node_error_one_worker :
    let m := { oneNodeJob runningWorker with jobStage := .jobStopping }
    m.jobStage = .jobStopping ∧
      (∀ ops, (run goneEnv m ops).jobStage = .jobStopping) ∧
      (∀ ops, (∀ op ∈ ops, op.isTrainingFailure = false) →
        relaunchedNodes (run goneEnv m ops).outputs = relaunchedNodes m.outputs) ∧
      ∀ t i n, m.jobNodes.jobNode t i = some n → n.isReleased = false → n.relaunchable = true →
        n.type.hasNodeManager = true →
        relaunchedNodes (handleTrainingFailure goneEnv t i .nodeError m).outputs =
          relaunchedNodes m.outputs ++ [n] :=
  ⟨rfl, stopping_job_relaunches_only_on_node_error goneEnv _ rfl⟩

end DistJobManager
