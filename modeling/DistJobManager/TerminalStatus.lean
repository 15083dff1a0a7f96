import DistJobManager.Invariants
import DistJobManager.EventEffects

/-! Terminal statuses: events move a status along the flow table, so an ended node stays ended and
the callbacks hear of each end once; the address report and off-target events break this. -/

namespace DistJobManager

/-- The statuses the spec calls terminal. -/
def NodeStatus.isTerminal : NodeStatus → Bool
  | .succeeded | .failed | .deleted => true
  | _ => false

/-- An event whose status is the one its flow is looked up for. -/
def NodeEvent.CarriesTarget (e : NodeEvent) : Prop :=
  flowTarget e.eventType e.node.status = e.node.status

instance : DecidablePred NodeEvent.CarriesTarget := fun e =>
  inferInstanceAs (Decidable (flowTarget e.eventType e.node.status = e.node.status))

theorem carriesTarget_of_synthesized {e : NodeEvent} (h : e.Synthesized) : e.CarriesTarget := by
  obtain ⟨h₁, h₂ | h₂⟩ := h <;> simp [NodeEvent.CarriesTarget, flowTarget, h₁, h₂]

theorem lockedNode_status_of_carriesTarget {e : NodeEvent} {cur : Node} {f : NodeStateFlow}
    (he : e.CarriesTarget) (hf : getNodeStateFlow cur.status e.eventType e.node.status = some f) :
    (lockedNode e (cur.updateInfo e.node)).status = f.toStatus := by
  rw [lockedNode_status, getNodeStateFlow_toStatus hf, he]

-- Without it, the deletion of a pod reported running brings a failed worker back to running.
example : ((processEvent goneEnv ⟨.deleted, { type := .worker, id := 0, status := .running }⟩
    (oneNodeJob { runningWorker with status := .failed })).jobNodes.jobNode .worker 0).map
      Node.status = some .running := by
  decide

theorem nodeStateFlows_terminal :
    ∀ f ∈ nodeStateFlows, f.fromStatus.isTerminal → f.toStatus.isTerminal := by
  decide

def StatusAt (P : NodeStatus → Prop) (t : NodeType) (i : Nat) (m : DistributedJobManager) : Prop :=
  ∃ n, m.jobNodes.jobNode t i = some n ∧ P n.status

section StatusAt

variable {P : NodeStatus → Prop} {t : NodeType} {i : Nat} {m : DistributedJobManager}

theorem StatusAt.write {n : Node} (h : StatusAt P t i m)
    (hn : ∀ x, m.jobNodes.jobNode n.type n.id = some x → P x.status → P n.status) :
    StatusAt P t i (m.write n) := by
  obtain ⟨x, hx, hP⟩ := h
  simp only [StatusAt, DistributedJobManager.write_jobNodes, JobNodes.jobNode_updateJobNode]
  split_ifs with hk
  · obtain ⟨rfl, rfl⟩ := hk
    exact ⟨n, rfl, hn x hx hP⟩
  · exact ⟨x, hx, hP⟩

theorem StatusAt.of_jobNodes {m' : DistributedJobManager} (h : StatusAt P t i m)
    (hj : m'.jobNodes = m.jobNodes) : StatusAt P t i m' := by
  rwa [StatusAt, hj]

theorem StatusAt.relaunchNode (env : ManagerEnv) {n₀ n : Node} (h : StatusAt P t i m)
    (hn : m.jobNodes.jobNode n.type n.id = some n₀) (hs : n.status = n₀.status) :
    StatusAt P t i (DistJobManager.relaunchNode env n m) := by
  cases hm : n.type.hasNodeManager
  · rwa [relaunchNode_of_not_manager env m hm]
  obtain ⟨x, hx, hP⟩ := h
  rw [StatusAt, relaunchNode_jobNode env m hm]
  split_ifs with h₁ h₂
  · obtain ⟨rfl, rfl⟩ := h₁
    obtain rfl : x = n₀ := Option.some.inj (hx.symm.trans hn)
    exact ⟨_, rfl, hs ▸ hP⟩
  · obtain ⟨rfl, rfl⟩ := h₂
    rw [JobNodes.jobNode_nextId] at hx
    cases hx
  · exact ⟨x, hx, hP⟩

/-- A status set closed along the flows is kept by every call but the address report. -/
theorem statusAt_preserved (env : ManagerEnv) (P : NodeStatus → Prop)
    (hflow : ∀ f ∈ nodeStateFlows, f.fromStatus ≠ .succeeded → P f.fromStatus → P f.toStatus)
    (hdel : P .running ∨ P .pending → P .deleted) (t : NodeType) (i : Nat) :
    Preserved env NodeEvent.CarriesTarget (fun _ => True) (StatusAt P t i) where
  write m n₀ n hI hn _ hs := hI.write fun x hx hP => by
    rwa [hs, ← Option.some.inj (hx.symm.trans hn)]
  transition m e cur f hI he hcur hf hs := by
    obtain ⟨-, ht, hi⟩ := JobNodes.jobNode_some hcur
    refine StatusAt.of_jobNodes (hI.write fun x hx hP => ?_) rfl
    obtain rfl : x = cur := Option.some.inj (hx.symm.trans (by simpa [ht, hi] using hcur))
    rw [lockedNode_status_of_carriesTarget he hf]
    obtain ⟨hmem, hfrom, -⟩ := getNodeStateFlow_spec hf
    exact hflow f hmem hs (hfrom ▸ hP)
  remove m n hI hn hrp := hI.write fun x hx hP => by
    obtain rfl : x = n := Option.some.inj (hx.symm.trans hn)
    exact hdel (hrp.imp (fun h => by rwa [h] at hP) (fun h => by rwa [h] at hP))
  emit _ _ hI _ := hI.of_jobNodes rfl
  relaunch m n₀ n hI hn _ hs _ _ := hI.relaunchNode env hn hs
  flags _ _ hI hj _ _ := hI.of_jobNodes hj
  reAdd m n hI hn _ _ := hI.write fun x hx _ => by rw [hn] at hx; cases hx

end StatusAt

@[simp] def Output.terminalNotified : Output → Option Node
  | .nodeCallback .succeeded n | .nodeCallback .failed n | .nodeCallback .deleted n => some n
  | _ => none

def terminalNotified (o : List Output) : List Node := o.filterMap Output.terminalNotified

@[simp] theorem terminalNotified_append (o o' : List Output) :
    terminalNotified (o ++ o') = terminalNotified o ++ terminalNotified o' :=
  List.filterMap_append _ _ _

theorem terminalNotified_of_quiet {o : List Output} (h : ∀ x ∈ o, x.Quiet) :
    terminalNotified o = [] := by
  refine List.filterMap_eq_nil_iff.mpr fun x hx => ?_
  have := h x hx
  cases x with
  | nodeCallback k n => exact this.elim
  | _ => rfl

def NodeStateFlow.notifiesTerminal (f : NodeStateFlow) : Bool :=
  f.toStatus = .succeeded || f.toStatus = .failed ||
    (f.fromStatus ≠ .failed && f.fromStatus ≠ .succeeded && f.toStatus = .deleted)

theorem terminalNotified_processNodeEvents (f : NodeStateFlow) (n : Node) :
    terminalNotified (processNodeEvents f n) = if f.notifiesTerminal then [n] else [] := by
  obtain ⟨o, t, r⟩ := f
  cases t <;> simp [processNodeEvents, NodeStateFlow.notifiesTerminal, terminalNotified, apply_ite]

theorem nodeStateFlows_notifiesTerminal :
    ∀ f ∈ nodeStateFlows, f.notifiesTerminal → !f.fromStatus.isTerminal ∧ f.toStatus.isTerminal := by
  decide

/-- Each node the callbacks were told has ended was told so once, and is stored terminal. -/
def TerminalOnce (m : DistributedJobManager) : Prop :=
  ((terminalNotified m.outputs).map Node.key).Nodup ∧
    ∀ n ∈ terminalNotified m.outputs, StatusAt (·.isTerminal) n.type n.id m

section TerminalOnce

variable {m m' : DistributedJobManager}

theorem TerminalOnce.of_notified (hI : TerminalOnce m)
    (ho : terminalNotified m'.outputs = terminalNotified m.outputs)
    (hs : ∀ x ∈ terminalNotified m.outputs, StatusAt (·.isTerminal) x.type x.id m') :
    TerminalOnce m' :=
  ⟨ho ▸ hI.1, fun x hx => hs x (ho ▸ hx)⟩

theorem TerminalOnce.key_not_notified (hI : TerminalOnce m) {n : Node}
    (hn : m.jobNodes.jobNode n.type n.id = some n) (hs : n.status.isTerminal = false) :
    n.key ∉ (terminalNotified m.outputs).map Node.key := by
  simp only [List.mem_map, not_exists, not_and]
  intro x hx hk
  obtain ⟨y, hy, hyt⟩ := hI.2 x hx
  have hkx : x.type = n.type ∧ x.id = n.id := by simpa [Node.key] using hk
  rw [hkx.1, hkx.2, hn] at hy
  cases hy
  simp [hs] at hyt

end TerminalOnce

theorem terminalOnce_preserved (env : ManagerEnv) :
    Preserved env NodeEvent.CarriesTarget (fun _ => True) TerminalOnce :=
  have hK := statusAt_preserved env (·.isTerminal)
    (fun f hf _ => nodeStateFlows_terminal f hf) (fun _ => rfl)
  { write := fun m n₀ n hI hn he hs =>
      hI.of_notified rfl fun x hx => (hK x.type x.id).write m n₀ n (hI.2 x hx) hn he hs
    transition := fun m e cur f hI he hcur hf hs => by
      obtain ⟨hmem, hfrom, -⟩ := getNodeStateFlow_spec hf
      have hold := fun x hx => (hK x.type x.id).transition m e cur f (hI.2 x hx) he hcur hf hs
      by_cases hn : f.notifiesTerminal
      · obtain ⟨hnot, hto⟩ := nodeStateFlows_notifiesTerminal f hmem hn
        obtain ⟨-, ht, hi⟩ := JobNodes.jobNode_some hcur
        have hcur' : m.jobNodes.jobNode cur.type cur.id = some cur := by simpa [ht, hi] using hcur
        have hfresh := hI.key_not_notified hcur' (by simpa [hfrom] using hnot)
        simp only [TerminalOnce, DistributedJobManager.emit_outputs, DistributedJobManager.write_outputs,
          terminalNotified_append, terminalNotified_processNodeEvents, hn, if_true]
        refine ⟨?_, fun x hx => ?_⟩
        · rw [List.map_append, List.nodup_append_comm]
          exact List.nodup_cons.mpr ⟨hfresh, hI.1⟩
        · rcases List.mem_append.mp hx with hx | hx
          · exact hold x hx
          · obtain rfl := List.mem_singleton.mp hx
            exact ⟨lockedNode e (cur.updateInfo e.node), by simp [JobNodes.jobNode_updateJobNode],
              by rwa [lockedNode_status_of_carriesTarget he hf]⟩
      · exact hI.of_notified (by simp [terminalNotified_processNodeEvents, hn]) hold
    remove := fun m n hI hn hrp =>
      hI.of_notified rfl fun x hx => (hK x.type x.id).remove m n (hI.2 x hx) hn hrp
    emit := fun m o hI ho =>
      hI.of_notified (by simp [terminalNotified_of_quiet ho]) fun x hx => (hI.2 x hx).of_jobNodes rfl
    relaunch := fun m n₀ n hI hn he hs hr hm =>
      hI.of_notified (by simp [relaunchNode_of_manager env m hm, terminalNotified])
        fun x hx => (hK x.type x.id).relaunch m n₀ n (hI.2 x hx) hn he hs hr hm
    flags := fun m m' hI hj ho _ =>
      hI.of_notified (by rw [ho]) fun x hx => (hI.2 x hx).of_jobNodes hj
    reAdd := fun m n hI hn hd hRe =>
      hI.of_notified rfl fun x hx => (hK x.type x.id).reAdd m n (hI.2 x hx) hn hd hRe }

/-- Without address reports and off-target events, ended nodes stay ended and end once. -/
theorem terminal_status_kept (env : ManagerEnv) (args : JobArgs) (hasRunningWorkers : Bool)
    {m₀ : DistributedJobManager} (h : DistributedJobManager.start args hasRunningWorkers = some m₀)
    (ops₁ ops₂ : List Op)
    (hops : ∀ op ∈ ops₁ ++ ops₂, (∀ e ∈ op.events, e.CarriesTarget) ∧ op.isServiceAddr = false) :
    let m₁ := run env m₀ ops₁
    let m₂ := run env m₁ ops₂
    (∀ t i n, m₁.jobNodes.jobNode t i = some n → n.status = .succeeded →
      ∃ n', m₂.jobNodes.jobNode t i = some n' ∧ n'.status = .succeeded) ∧
    (∀ t i n, m₁.jobNodes.jobNode t i = some n → n.status.isTerminal →
      ∃ n', m₂.jobNodes.jobNode t i = some n' ∧ n'.status.isTerminal) ∧
    ((terminalNotified m₂.outputs).map Node.key).Nodup := by
  intro m₁ m₂
  have hadm : ∀ op ∈ ops₁ ++ ops₂, Preserved.Admits NodeEvent.CarriesTarget (fun _ => True) op :=
    fun op hop => ⟨(hops op hop).1, fun _ _ => trivial, (hops op hop).2⟩
  have hops₂ := fun op hop => hadm op (List.mem_append_right ops₁ hop)
  have h₀ : terminalNotified m₀.outputs = [] := by
    unfold DistributedJobManager.start at h
    obtain ⟨c, -, rfl⟩ := Option.map_eq_some'.mp h
    split_ifs <;> rfl
  have hrun : m₂ = run env m₀ (ops₁ ++ ops₂) := (List.foldl_append _ _ _ _).symm
  refine ⟨fun t i n hn hs => ?_, fun t i n hn hs => ?_, ?_⟩
  · exact (statusAt_preserved env (· = .succeeded) (fun _ _ h h' => absurd h' h)
      (fun h => by simp at h) t i).run (fun _ => carriesTarget_of_synthesized) ops₂ m₁ hops₂
      ⟨n, hn, hs⟩
  · exact (statusAt_preserved env (·.isTerminal)
      (fun f hf _ => nodeStateFlows_terminal f hf) (fun _ => rfl) t i).run
      (fun _ => carriesTarget_of_synthesized) ops₂ m₁ hops₂ ⟨n, hn, hs⟩
  · rw [hrun]
    exact ((terminalOnce_preserved env).run (fun _ => carriesTarget_of_synthesized) _ m₀ hadm
      ⟨by simp [h₀], by simp [h₀]⟩).1

def workerRuns : Op := .processEvent ⟨.modified, { type := .worker, id := 0, status := .running }⟩

def workerSucceeds : Op := .processEvent ⟨.modified, { type := .worker, id := 0, status := .succeeded }⟩

def workerPodDeleted : Op := .processEvent ⟨.deleted, { type := .worker, id := 0, status := .deleted }⟩

def workerFails : Op := .processEvent ⟨.modified, { type := .worker, id := 0, status := .failed }⟩

theorem terminal_status_kept_succeeded_worker :
    ∃ m₀, DistributedJobManager.start oneWorkerArgs false = some m₀ ∧
      (∀ op ∈ [workerRuns, workerSucceeds] ++ [workerPodDeleted],
        (∀ e ∈ op.events, e.CarriesTarget) ∧ op.isServiceAddr = false) ∧
      let m₁ := run goneEnv m₀ [workerRuns, workerSucceeds]
      let m₂ := run goneEnv m₁ [workerPodDeleted]
      (∀ t i n, m₁.jobNodes.jobNode t i = some n → n.status = .succeeded →
        ∃ n', m₂.jobNodes.jobNode t i = some n' ∧ n'.status = .succeeded) ∧
      (∀ t i n, m₁.jobNodes.jobNode t i = some n → n.status.isTerminal →
        ∃ n', m₂.jobNodes.jobNode t i = some n' ∧ n'.status.isTerminal) ∧
      ((terminalNotified m₂.outputs).map Node.key).Nodup :=
  ⟨_, rfl, by decide, terminal_status_kept goneEnv oneWorkerArgs false rfl _ _ (by decide)⟩

/-- A succeeded worker that reports its address runs again, and its failure ends it twice. -/
theorem service_addr_restarts_succeeded_worker :
    ∃ m₀, DistributedJobManager.start oneWorkerArgs false = some m₀ ∧
      let m₁ := run goneEnv m₀ [workerRuns, workerSucceeds]
      let m₂ := run goneEnv m₁ [.updateNodeServiceAddr .worker 0 "addr"]
      (m₁.jobNodes.jobNode .worker 0).map Node.status = some .succeeded ∧
        (m₂.jobNodes.jobNode .worker 0).map Node.status = some .running ∧
        (terminalNotified (run goneEnv m₂ [workerFails]).outputs).map Node.key =
          [(.worker, 0), (.worker, 0)] :=
  ⟨_, rfl, by decide⟩

end DistJobManager
