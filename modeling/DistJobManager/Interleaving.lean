import DistJobManager.Operations

/-! The manager under concurrent calls: a call in flight holds keys, never nodes, so every read
is of the live store, and one step of a thread is one atomic action of the source. -/

namespace DistJobManager

/-- The calls that race on the store, the node monitor's list pass included. -/
inductive Call
  | processEvent (e : NodeEvent)
  | handleTrainingFailure (t : NodeType) (i : Nat) (level : TrainingExceptionLevel)
  | stop
  | updateNodeResourceUsage (t : NodeType) (i : Nat) (cpu : ℚ) (memory : Nat)
      (gpuStats : List GPUStats) (now : Nat)
  | updateNodeServiceAddr (t : NodeType) (i : Nat) (addr : String)
  | updateNodeParalConfig (t : NodeType) (i : Nat) (config : String)
  | processListNodes (nodes : List Node)

structure ListPass where
  listed : List Node
  types : List NodeType

/-- A call in flight and the point it has reached. -/
inductive Thread
  | processEvent (e : NodeEvent)
  | transitionNode (e : NodeEvent)
  | afterLock (t : EventTransition)
  | handleTrainingFailure (t : NodeType) (i : Nat) (level : TrainingExceptionLevel)
  | relaunchNode (t : NodeType) (i : Nat)
  | stop
  | stopLocked
  | stopFinish
  | updateNodeResourceUsage (t : NodeType) (i : Nat) (cpu : ℚ) (memory : Nat)
      (gpuStats : List GPUStats) (now : Nat)
  | updateHangTime (t : NodeType) (i now : Nat)
  | updateNodeServiceAddr (t : NodeType) (i : Nat) (addr : String)
  | updateNodeParalConfig (t : NodeType) (i : Nat) (config : String)
  | processListNodes (nodes : List Node)
  | listFirst (p : ListPass) (rest : List Node)
  | listSecond (p : ListPass) (ts : List NodeType)
  | visitIds (p : ListPass) (t : NodeType) (ids : List Nat) (ts : List NodeType)
  | retire (p : ListPass) (t : NodeType) (i : Nat) (xs : List Node) (ids : List Nat)
      (ts : List NodeType)
  | seq (inner next : Thread)

def Call.start : Call → Thread
  | .processEvent e => .processEvent e
  | .handleTrainingFailure t i level => .handleTrainingFailure t i level
  | .stop => .stop
  | .updateNodeResourceUsage t i cpu memory gpuStats now =>
    .updateNodeResourceUsage t i cpu memory gpuStats now
  | .updateNodeServiceAddr t i addr => .updateNodeServiceAddr t i addr
  | .updateNodeParalConfig t i config => .updateNodeParalConfig t i config
  | .processListNodes nodes => .processListNodes nodes

/-- One atomic step of a thread: the new state, and the next point unless the call returned. -/
def Thread.step (env : ManagerEnv) : Thread → DistributedJobManager →
    DistributedJobManager × Option Thread
  | .processEvent e, m =>
    match eventLookup env e m with
    | none => (m, none)
    | some cur =>
      let m := m.write (cur.updateInfo e.node)
      if e.eventType = .exit then (closeJob m, none) else (m, some (.transitionNode e))
  | .transitionNode e, m =>
    match eventTransition env e m with
    | (m, none) => (m, none)
    | (m, some t) => (m, some (.afterLock t))
  | .afterLock t, m => (eventAfterLock env t m, none)
  | .handleTrainingFailure t i level, m =>
    match m.jobNodes.jobNode t i with
    | none => (m, none)
    | some n =>
      let d := trainingFailureDecision env n level
      (m.emit d.2, if d.1 then some (.relaunchNode t i) else none)
  | .relaunchNode t i, m =>
    match m.jobNodes.jobNode t i with
    | none => (m, none)
    | some n => (DistJobManager.relaunchNode env n m, none)
  | .stop, m =>
    if m.stopped then (m, none) else ({ m with enableRelaunchNode := false }, some .stopLocked)
  | .stopLocked, m =>
    let (m, finished) := DistJobManager.stopLocked env m
    (m, if finished then some .stopFinish else none)
  | .stopFinish, m => ({ m with stopped := true }, none)
  | .updateNodeResourceUsage t i cpu memory gpuStats now, m =>
    match m.jobNodes.jobNode t i with
    | none => (m, none)
    | some n => (m.write (n.updateResourceUsage cpu memory gpuStats), some (.updateHangTime t i now))
  | .updateHangTime t i now, m => (DistJobManager.updateHangTime env t i now m, none)
  | .updateNodeServiceAddr t i addr, m => (DistJobManager.updateNodeServiceAddr t i addr m, none)
  | .updateNodeParalConfig t i config, m => (DistJobManager.updateNodeParalConfig t i config m, none)
  | .processListNodes nodes, m => (m, some (.listFirst ⟨nodes, m.jobNodes.types⟩ nodes))
  | .listFirst p [], m => (m, some (.listSecond p m.jobNodes.types))
  | .listFirst p (node :: rest), m =>
    if node.type ∈ p.types then
      (listedNodeUpdate node m, some (.seq (.processEvent (listedEvent node)) (.listFirst p rest)))
    else (m, none)
  | .listSecond _ [], m => (m, none)
  | .listSecond p (t :: ts), m => (m, some (.visitIds p t ((m.jobNodes.nodes t).map (·.id)) ts))
  | .visitIds p _ [] ts, m => (m, some (.listSecond p ts))
  | .visitIds p t (i :: ids) ts, m =>
    match visitAction p.listed p.types t i m.jobNodes with
    | .skip => (m, some (.visitIds p t ids ts))
    | .raise => (m, none)
    | .lost e => (m, some (.seq (.processEvent e) (.visitIds p t ids ts)))
    | .retire exist => (m, some (.retire p t i exist ids ts))
  | .retire p t _ [] ids ts, m => (m, some (.visitIds p t ids ts))
  | .retire p t i (x :: xs) ids ts, m =>
    match retireEvent t i x m.jobNodes with
    | some e => (m, some (.seq (.processEvent e) (.retire p t i xs ids ts)))
    | none => (m, some (.retire p t i xs ids ts))
  | .seq inner next, m =>
    match inner.step env m with
    | (m, none) => (m, some next)
    | (m, some inner) => (m, some (.seq inner next))

structure Sys where
  manager : DistributedJobManager
  threads : List Thread

inductive Choice
  | call (c : Call)
  | advance (k : Nat)

/-- One scheduling step: a call arrives or a thread steps; nothing runs after `os._exit`. -/
def Sys.step (env : ManagerEnv) (s : Sys) : Choice → Option Sys
  | .call c => if s.manager.exited then none else some ⟨s.manager, s.threads ++ [c.start]⟩
  | .advance k =>
    if s.manager.exited then none
    else
      match s.threads.get? k with
      | none => none
      | some th =>
        match th.step env s.manager with
        | (m, none) => some ⟨m, s.threads.eraseIdx k⟩
        | (m, some th) => some ⟨m, s.threads.set k th⟩

def Sys.Step (env : ManagerEnv) (s s' : Sys) : Prop := ∃ c, s.step env c = some s'

abbrev Sys.Reachable (env : ManagerEnv) := Relation.ReflTransGen (Sys.Step env)

def Sys.runSchedule (env : ManagerEnv) (s : Sys) : List Choice → Option Sys
  | [] => some s
  | c :: cs => (s.step env c).bind fun s => s.runSchedule env cs

theorem Sys.reachable_of_runSchedule {env : ManagerEnv} {s s' : Sys} {cs : List Choice}
    (h : s.runSchedule env cs = some s') : Sys.Reachable env s s' := by
  induction cs generalizing s with
  | nil => cases h; exact .refl
  | cons c cs ih =>
    simp only [Sys.runSchedule, Option.bind_eq_some] at h
    obtain ⟨s₁, h₁, h₂⟩ := h
    exact Relation.ReflTransGen.head ⟨c, h₁⟩ (ih h₂)

theorem Sys.reachable_of_runSchedule_any {env : ManagerEnv} {s : Sys} (cs : List Choice)
    {P : Sys → Prop} [DecidablePred P] (h : (s.runSchedule env cs).any (fun s => decide (P s))) :
    ∃ s', Sys.Reachable env s s' ∧ P s' := by
  cases hs : s.runSchedule env cs with
  | none => simp [hs] at h
  | some s' => exact ⟨s', Sys.reachable_of_runSchedule hs, by simpa [hs] using h⟩

theorem Sys.reachable_of_runSchedule_any₂ {env : ManagerEnv} {s : Sys} (cs₁ cs₂ : List Choice)
    {P Q : Sys → Prop} [DecidablePred P] [DecidablePred Q]
    (h : (s.runSchedule env cs₁).any fun s₁ =>
      decide (P s₁) && (s₁.runSchedule env cs₂).any fun s₂ => decide (Q s₂)) :
    ∃ s₁, Sys.Reachable env s s₁ ∧ P s₁ ∧ ∃ s₂, Sys.Reachable env s₁ s₂ ∧ Q s₂ := by
  obtain ⟨s₁, h₁, hP⟩ := @Sys.reachable_of_runSchedule_any env s cs₁ (fun s₁ => P s₁ ∧
    ((s₁.runSchedule env cs₂).any fun s₂ => decide (Q s₂)) = true) _ (by simpa using h)
  exact ⟨s₁, h₁, hP.1, Sys.reachable_of_runSchedule_any cs₂ hP.2⟩

def Call.exec (env : ManagerEnv) : Call → DistributedJobManager → DistributedJobManager
  | .processEvent e => DistJobManager.processEvent env e
  | .handleTrainingFailure t i level => DistJobManager.handleTrainingFailure env t i level
  | .stop => DistJobManager.stop env
  | .updateNodeResourceUsage t i cpu memory gpuStats now =>
    DistJobManager.updateNodeResourceUsage env t i cpu memory gpuStats now
  | .updateNodeServiceAddr t i addr => DistJobManager.updateNodeServiceAddr t i addr
  | .updateNodeParalConfig t i config => DistJobManager.updateNodeParalConfig t i config
  | .processListNodes nodes => fun m => (DistJobManager.processListNodes env nodes m).1

/-- A thread run alone from `m` to its end, where it returns with `m'`. -/
inductive Thread.Runs (env : ManagerEnv) : Thread → DistributedJobManager → DistributedJobManager →
    Prop
  | last {th m m'} : m.exited = false → th.step env m = (m', none) → Thread.Runs env th m m'
  | next {th th' m m₁ m'} : m.exited = false → th.step env m = (m₁, some th') →
      Thread.Runs env th' m₁ m' → Thread.Runs env th m m'

section Serial

variable {env : ManagerEnv}

theorem Thread.Runs.reachable {th : Thread} {m m' : DistributedJobManager}
    (h : Thread.Runs env th m m') : Sys.Reachable env ⟨m, [th]⟩ ⟨m', []⟩ := by
  induction h with
  | last hm hs => exact .single ⟨.advance 0, by simp [Sys.step, hm, hs]⟩
  | next hm hs _ ih => exact .head ⟨.advance 0, by simp [Sys.step, hm, hs]⟩ ih

theorem Thread.Runs.seq {inner next : Thread} {m m₁ m₂ : DistributedJobManager}
    (h : Thread.Runs env inner m m₁) (hn : Thread.Runs env next m₁ m₂) :
    Thread.Runs env (.seq inner next) m m₂ := by
  induction h with
  | last hm hs => exact .next hm (by simp [Thread.step, hs]) hn
  | next hm hs _ ih => exact .next hm (by simp [Thread.step, hs]) (ih hn)

theorem Thread.Runs.of_step {th : Thread} {m m' : DistributedJobManager} (hm : m.exited = false)
    (h : match th.step env m with
      | (m₁, none) => m₁ = m'
      | (m₁, some th') => Thread.Runs env th' m₁ m') :
    Thread.Runs env th m m' := by
  rcases hs : th.step env m with ⟨m₁, _ | th'⟩ <;> rw [hs] at h
  · exact .last hm (by rw [hs, h])
  · exact .next hm hs h

theorem runs_processEvent (e : NodeEvent) {m : DistributedJobManager} (hm : m.exited = false) :
    Thread.Runs env (.processEvent e) m (processEvent env e m) := by
  cases hl : eventLookup env e m with
  | none => exact .of_step hm (by simp [Thread.step, hl, processEvent])
  | some cur =>
    by_cases hx : e.eventType = .exit
    · exact .of_step hm (by simp [Thread.step, hl, hx, processEvent])
    have hm₁ : (m.write (cur.updateInfo e.node)).exited = false := hm
    have hm₂ := (eventTransition_exited env e (m.write (cur.updateInfo e.node))).trans hm₁
    refine .of_step hm ?_
    simp only [Thread.step, hl, hx, if_false]
    refine .of_step hm₁ ?_
    rcases ht : eventTransition env e (m.write (cur.updateInfo e.node)) with ⟨m', _ | t⟩ <;>
      rw [ht] at hm₂ <;> simp only [Thread.step, ht]
    · simp [processEvent, hl, hx, ht]
    · exact .of_step hm₂ (by simp [Thread.step, processEvent, hl, hx, ht])

theorem runs_stop {m : DistributedJobManager} (hm : m.exited = false) :
    Thread.Runs env .stop m (stop env m) := by
  by_cases hs : m.stopped
  · exact .of_step hm (by simp [Thread.step, stop, hs])
  have hm₁ : ({ m with enableRelaunchNode := false } : DistributedJobManager).exited = false := hm
  have hm₂ := (stopLocked_exited env { m with enableRelaunchNode := false }).trans hm₁
  refine .of_step hm ?_
  simp only [Thread.step, if_neg hs]
  refine .of_step hm₁ ?_
  rcases h : stopLocked env { m with enableRelaunchNode := false } with ⟨m₁, _ | _⟩ <;>
    rw [h] at hm₂ <;> simp only [Thread.step, h, Bool.false_eq_true, if_false, if_true]
  · rw [stop, if_neg hs, h]
  · exact .of_step hm₂ (by rw [Thread.step, stop, if_neg hs, h])

theorem runs_handleTrainingFailure (t : NodeType) (i : Nat) (level : TrainingExceptionLevel)
    {m : DistributedJobManager} (hm : m.exited = false) :
    Thread.Runs env (.handleTrainingFailure t i level) m (handleTrainingFailure env t i level m) := by
  refine .of_step hm ?_
  cases hn : m.jobNodes.jobNode t i with
  | none => simp [Thread.step, handleTrainingFailure, hn]
  | some n =>
    have hm₁ : (m.emit (trainingFailureDecision env n level).2).exited = false := hm
    by_cases hd : (trainingFailureDecision env n level).1
    · simp only [Thread.step, hn, hd, if_true]
      exact .of_step hm₁ (by simp [Thread.step, handleTrainingFailure, hn, hd])
    · simp [Thread.step, handleTrainingFailure, hn, hd]

theorem runs_updateNodeResourceUsage (t : NodeType) (i : Nat) (cpu : ℚ) (memory : Nat)
    (gpuStats : List GPUStats) (now : Nat) {m : DistributedJobManager} (hm : m.exited = false) :
    Thread.Runs env (.updateNodeResourceUsage t i cpu memory gpuStats now) m
      (updateNodeResourceUsage env t i cpu memory gpuStats now m) := by
  refine .of_step hm ?_
  cases hn : m.jobNodes.jobNode t i with
  | none => simp [Thread.step, updateNodeResourceUsage, hn]
  | some n =>
    have hm₁ : (m.write (n.updateResourceUsage cpu memory gpuStats)).exited = false := hm
    simp only [Thread.step, hn]
    exact .of_step hm₁ (by simp [Thread.step, updateNodeResourceUsage, hn])

/-! A list pass run alone: each loop is a run of its thread, by induction on what the loop
has left, with the events it feeds run as nested calls. -/

def ListPass.firstFrom (env : ManagerEnv) (p : ListPass) (rest : List Node)
    (m : DistributedJobManager) : DistributedJobManager × Bool :=
  match listFirstLoop env p.types rest m with
  | (m, true) => listSecondLoop env p.listed p.types m.jobNodes.types m
  | (m, false) => (m, false)

def ListPass.visitFrom (env : ManagerEnv) (p : ListPass) (t : NodeType) (ids : List Nat)
    (ts : List NodeType) (m : DistributedJobManager) : DistributedJobManager × Bool :=
  match visitIds env p.listed p.types t ids m with
  | (m, true) => listSecondLoop env p.listed p.types ts m
  | (m, false) => (m, false)

theorem ListPass.visitFrom_cons (p : ListPass) (t : NodeType) (i : Nat) (ids : List Nat)
    (ts : List NodeType) (m : DistributedJobManager) :
    p.visitFrom env t (i :: ids) ts m =
      match visitAction p.listed p.types t i m.jobNodes with
      | .skip => p.visitFrom env t ids ts m
      | .raise => (m, false)
      | .lost e => p.visitFrom env t ids ts (processEvent env e m)
      | .retire exist => p.visitFrom env t ids ts (retireReplaced env t i exist m) := by
  rw [ListPass.visitFrom, visitIds]
  cases visitAction p.listed p.types t i m.jobNodes <;> rfl

theorem runs_listSecond (p : ListPass) :
    ∀ (ts : List NodeType) {m : DistributedJobManager}, m.exited = false →
      Thread.Runs env (.listSecond p ts) m (listSecondLoop env p.listed p.types ts m).1
  | [], _, hm => .last hm rfl
  | t :: ts, m, hm =>
    .next hm rfl (runs_visitIds p t ts (runs_listSecond p ts) ((m.jobNodes.nodes t).map (·.id)) hm)
where
  runs_visitIds (p : ListPass) (t : NodeType) (ts : List NodeType)
      (hts : ∀ {m : DistributedJobManager}, m.exited = false →
        Thread.Runs env (.listSecond p ts) m (listSecondLoop env p.listed p.types ts m).1) :
      ∀ (ids : List Nat) {m : DistributedJobManager}, m.exited = false →
        Thread.Runs env (.visitIds p t ids ts) m (p.visitFrom env t ids ts m).1
    | [], _, hm => .next hm rfl (hts hm)
    | i :: ids, m, hm => by
      rw [ListPass.visitFrom_cons]
      cases hv : visitAction p.listed p.types t i m.jobNodes with
      | skip => exact .next hm (by simp [Thread.step, hv]) (runs_visitIds p t ts hts ids hm)
      | raise => exact .last hm (by simp [Thread.step, hv])
      | lost e =>
        have hm₁ : (processEvent env e m).exited = false := by
          rw [processEvent_exited (visitAction_lost hv).ne_exit]; exact hm
        exact .next hm (by simp [Thread.step, hv])
          (.seq (runs_processEvent e hm) (runs_visitIds p t ts hts ids hm₁))
      | retire exist =>
        exact .next hm (by simp [Thread.step, hv])
          (runs_retire p t i ids ts (runs_visitIds p t ts hts ids) exist hm)
  runs_retire (p : ListPass) (t : NodeType) (i : Nat) (ids : List Nat) (ts : List NodeType)
      (hids : ∀ {m : DistributedJobManager}, m.exited = false →
        Thread.Runs env (.visitIds p t ids ts) m (p.visitFrom env t ids ts m).1) :
      ∀ (xs : List Node) {m : DistributedJobManager}, m.exited = false →
        Thread.Runs env (.retire p t i xs ids ts) m
          (p.visitFrom env t ids ts (retireReplaced env t i xs m)).1
    | [], _, hm => .next hm rfl (hids hm)
    | x :: xs, m, hm => by
      rw [retireReplaced]
      cases he : retireEvent t i x m.jobNodes with
      | none => exact .next hm (by simp [Thread.step, he]) (runs_retire p t i ids ts hids xs hm)
      | some e =>
        have hm₁ : (processEvent env e m).exited = false := by
          rw [processEvent_exited (retireEvent_synthesized he).ne_exit]; exact hm
        exact .next hm (by simp [Thread.step, he])
          (.seq (runs_processEvent e hm) (runs_retire p t i ids ts hids xs hm₁))

theorem runs_listFirst (p : ListPass) :
    ∀ (rest : List Node) {m : DistributedJobManager}, m.exited = false →
      Thread.Runs env (.listFirst p rest) m (p.firstFrom env rest m).1
  | [], _, hm => .next hm rfl (runs_listSecond p _ hm)
  | node :: rest, m, hm => by
    by_cases h : node.type ∈ p.types
    · have hm₁ : (listedNodeUpdate node m).exited = false := by simpa using hm
      have hm₂ : (processEvent env (listedEvent node) (listedNodeUpdate node m)).exited = false := by
        rw [processEvent_exited (listedEvent_ne_exit node)]; exact hm₁
      refine .of_step hm ?_
      simp only [Thread.step, if_pos h]
      refine .seq (runs_processEvent _ hm₁) ?_
      rw [ListPass.firstFrom, listFirstLoop, if_pos h]
      exact runs_listFirst p rest hm₂
    · exact .last hm (by simp [Thread.step, h, ListPass.firstFrom, listFirstLoop])

theorem runs_processListNodes (nodes : List Node) {m : DistributedJobManager} (hm : m.exited = false) :
    Thread.Runs env (.processListNodes nodes) m (processListNodes env nodes m).1 :=
  .next hm rfl (runs_listFirst ⟨nodes, m.jobNodes.types⟩ nodes hm)

theorem Call.runs (c : Call) {m : DistributedJobManager} (hm : m.exited = false) :
    Thread.Runs env c.start m (c.exec env m) := by
  cases c with
  | processEvent e => exact runs_processEvent e hm
  | handleTrainingFailure t i level => exact runs_handleTrainingFailure t i level hm
  | stop => exact runs_stop hm
  | updateNodeResourceUsage t i cpu memory gpuStats now =>
    exact runs_updateNodeResourceUsage t i cpu memory gpuStats now hm
  | updateNodeServiceAddr t i addr => exact .last hm rfl
  | updateNodeParalConfig t i config => exact .last hm rfl
  | processListNodes nodes => exact runs_processListNodes nodes hm

theorem Call.reachable_exec (c : Call) {m : DistributedJobManager} (hm : m.exited = false) :
    Sys.Reachable env ⟨m, []⟩ ⟨c.exec env m, []⟩ :=
  .head ⟨.call c, by simp [Sys.step, hm]⟩ (c.runs hm).reachable

def Call.op : Call → Op
  | .processEvent e => .processEvent e
  | .handleTrainingFailure t i level => .handleTrainingFailure t i level
  | .stop => .stop
  | .updateNodeResourceUsage t i cpu memory gpuStats now =>
    .updateNodeResourceUsage t i cpu memory gpuStats now
  | .updateNodeServiceAddr t i addr => .updateNodeServiceAddr t i addr
  | .updateNodeParalConfig t i config => .updateNodeParalConfig t i config
  | .processListNodes nodes => .processListNodes nodes

theorem Call.exec_op (c : Call) : c.op.exec env = c.exec env := by
  cases c <;> rfl

/-- Every sequential run is an interleaving that ends with no call in flight. -/
theorem sequential_runs_are_interleavings (m : DistributedJobManager) (calls : List Call) :
    Sys.Reachable env ⟨m, []⟩ ⟨run env m (calls.map Call.op), []⟩ := by
  induction calls generalizing m with
  | nil => exact .refl
  | cons c calls ih =>
    rw [List.map_cons, run_cons]
    by_cases hm : m.exited
    · rw [show step env m c.op = m by simp [step, hm]]
      exact ih m
    · rw [show step env m c.op = c.exec env m by simp [step, hm, Call.exec_op]]
      exact (Call.reachable_exec c (by simpa using hm)).trans (ih _)

end Serial

section Invariant

variable {env : ManagerEnv} {I : DistributedJobManager → Prop} {T : Thread → Prop}

theorem Sys.Step.invariant (hstart : ∀ c : Call, T c.start)
    (hstep : ∀ th m, T th → I m → I (th.step env m).1 ∧ ∀ th', (th.step env m).2 = some th' → T th')
    {s s' : Sys} (hs : Sys.Step env s s') (h : I s.manager ∧ ∀ th ∈ s.threads, T th) :
    I s'.manager ∧ ∀ th ∈ s'.threads, T th := by
  obtain ⟨c, hc⟩ := hs
  cases c with
  | call c =>
    simp only [Sys.step] at hc
    split at hc
    · cases hc
    · cases hc
      refine ⟨h.1, fun th hth => ?_⟩
      rcases List.mem_append.mp hth with hth | hth
      · exact h.2 th hth
      · rw [List.mem_singleton.mp hth]
        exact hstart c
  | advance k =>
    simp only [Sys.step] at hc
    split at hc
    · cases hc
    · split at hc
      · cases hc
      · next th hk =>
        have hst := hstep th s.manager (h.2 th (List.get?_mem hk)) h.1
        split at hc <;> cases hc <;> rename_i heq <;> rw [heq] at hst
        · exact ⟨hst.1, fun x hx => h.2 x ((List.eraseIdx_sublist _ _).subset hx)⟩
        · refine ⟨hst.1, fun x hx => ?_⟩
          rcases List.mem_or_eq_of_mem_set hx with hx | rfl
          · exact h.2 x hx
          · exact hst.2 _ rfl

/-- An invariant of the manager and of the calls in flight holds in every reachable state. -/
theorem Sys.Reachable.invariant (hstart : ∀ c : Call, T c.start)
    (hstep : ∀ th m, T th → I m → I (th.step env m).1 ∧ ∀ th', (th.step env m).2 = some th' → T th')
    {s s' : Sys} (hs : Sys.Reachable env s s') (h : I s.manager ∧ ∀ th ∈ s.threads, T th) :
    I s'.manager ∧ ∀ th ∈ s'.threads, T th := by
  induction hs with
  | refl => exact h
  | tail _ hst ih => exact hst.invariant hstart hstep ih

end Invariant

end DistJobManager
