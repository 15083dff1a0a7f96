import DistJobManager.ProcessEvent

/-! `_process_list_nodes`, the pass the node monitor runs on each listing of the cluster. Both
loops read the live store, so the second sees what the first re-added and what it relaunched. -/

namespace DistJobManager

/-- The types with an entry in the store: the keys of `job_nodes`, and so of `exist_nodes`. -/
def JobNodes.types (s : JobNodes) : List NodeType := NodeType.all.filter fun t => (s.byType t).isSome

def listedEvent (node : Node) : NodeEvent :=
  ⟨if node.status = .deleted then .deleted else .modified, node⟩

/-- The first loop before a listed node's event: the re-add, then the worker's group. -/
def listedNodeUpdate (node : Node) (m : DistributedJobManager) : DistributedJobManager :=
  let m := if m.jobNodes.jobNode node.type node.id = none ∧ node.status ≠ .deleted then m.write node
    else m
  match m.jobNodes.jobNode node.type node.id with
  | some x =>
    if node.type = .worker ∧ x.group ≠ node.group then
      m.write { x with group := node.group, groupSize := node.groupSize, groupId := node.groupId }
    else m
  | none => m

/-- The first loop; `false` at the `KeyError` of `exist_nodes[node_type]` for a new type. -/
def listFirstLoop (env : ManagerEnv) (types : List NodeType) :
    List Node → DistributedJobManager → DistributedJobManager × Bool
  | [], m => (m, true)
  | node :: nodes, m =>
    if node.type ∈ types then
      listFirstLoop env types nodes (processEvent env (listedEvent node) (listedNodeUpdate node m))
    else (m, false)

def lostEvent (node : Node) : NodeEvent := ⟨.deleted, { node with isReleased := true, status := .deleted }⟩

def relaunchedEvent (node : Node) : NodeEvent :=
  ⟨.deleted, { node with isReleased := true, status := .deleted, exitReason := some .relaunched }⟩

/-- What the second loop does at a stored node, read live. -/
inductive Visit
  | skip
  | raise
  | lost (e : NodeEvent)
  | retire (exist : List Node)
  deriving DecidableEq, Repr

def visitAction (listed : List Node) (types : List NodeType) (t : NodeType) (i : Nat)
    (s : JobNodes) : Visit :=
  match s.jobNode t i with
  | none => .skip
  | some node =>
    if node.isReleased then .skip
    else if t ∉ types then .raise
    else
      let exist := listed.filter (·.type = t)
      if node.id ∈ exist.map (·.id) then .skip
      else if node.status ≠ .initial then .lost (lostEvent node)
      else .retire exist

def retireEvent (t : NodeType) (i : Nat) (x : Node) (s : JobNodes) : Option NodeEvent :=
  match s.jobNode t i with
  | some node => if node.rankIndex = x.rankIndex ∧ node.id < x.id then some (relaunchedEvent node) else none
  | none => none

def retireReplaced (env : ManagerEnv) (t : NodeType) (i : Nat) :
    List Node → DistributedJobManager → DistributedJobManager
  | [], m => m
  | x :: xs, m =>
    retireReplaced env t i xs (match retireEvent t i x m.jobNodes with
      | some e => processEvent env e m
      | none => m)

/-- The second loop over the ids of type `t` taken when the type's loop began. -/
def visitIds (env : ManagerEnv) (listed : List Node) (types : List NodeType) (t : NodeType) :
    List Nat → DistributedJobManager → DistributedJobManager × Bool
  | [], m => (m, true)
  | i :: ids, m =>
    match visitAction listed types t i m.jobNodes with
    | .skip => visitIds env listed types t ids m
    | .raise => (m, false)
    | .lost e => visitIds env listed types t ids (processEvent env e m)
    | .retire exist => visitIds env listed types t ids (retireReplaced env t i exist m)

def listSecondLoop (env : ManagerEnv) (listed : List Node) (types : List NodeType) :
    List NodeType → DistributedJobManager → DistributedJobManager × Bool
  | [], m => (m, true)
  | t :: ts, m =>
    match visitIds env listed types t ((m.jobNodes.nodes t).map (·.id)) m with
    | (m, true) => listSecondLoop env listed types ts m
    | (m, false) => (m, false)

/-- `_process_list_nodes(nodes)`: the manager after the pass, and `false` when it raised. -/
def processListNodes (env : ManagerEnv) (nodes : List Node) (m : DistributedJobManager) :
    DistributedJobManager × Bool :=
  match listFirstLoop env m.jobNodes.types nodes m with
  | (m', true) => listSecondLoop env nodes m.jobNodes.types m'.jobNodes.types m'
  | (m', false) => (m', false)

def NodeEvent.Synthesized (e : NodeEvent) : Prop :=
  e.eventType = .deleted ∧ (e.node.status = .failed ∨ e.node.status = .deleted)

theorem listedEvent_ne_exit (node : Node) : (listedEvent node).eventType ≠ .exit := by
  unfold listedEvent
  split_ifs <;> simp

theorem visitAction_lost {listed : List Node} {types : List NodeType} {t : NodeType} {i : Nat}
    {s : JobNodes} {e : NodeEvent} (h : visitAction listed types t i s = .lost e) : e.Synthesized := by
  unfold visitAction at h
  split at h
  · cases h
  · simp only [ite_eq_left_iff] at h
    split_ifs at h
    cases h
    exact ⟨rfl, .inr rfl⟩

theorem retireEvent_synthesized {t : NodeType} {i : Nat} {x : Node} {s : JobNodes} {e : NodeEvent}
    (h : retireEvent t i x s = some e) : e.Synthesized := by
  unfold retireEvent at h
  split at h
  · split_ifs at h
    cases h
    exact ⟨rfl, .inr rfl⟩
  · cases h

theorem NodeEvent.Synthesized.ne_exit {e : NodeEvent} (h : e.Synthesized) : e.eventType ≠ .exit := by
  rw [h.1]; decide

/-! A property of the manager that every synthesized deletion keeps, and every listed node's
update and event, holds after the pass: the two loops are folds of those steps. -/

section Induction

variable {env : ManagerEnv} (P : DistributedJobManager → Prop)

theorem retireReplaced_induction (hev : ∀ m e, P m → e.Synthesized → P (processEvent env e m))
    (t : NodeType) (i : Nat) :
    ∀ (xs : List Node) (m : DistributedJobManager), P m → P (retireReplaced env t i xs m)
  | [], _, h => h
  | x :: xs, m, h => by
    rw [retireReplaced]
    refine retireReplaced_induction hev t i xs _ ?_
    split
    · next e he => exact hev m e h (retireEvent_synthesized he)
    · exact h

theorem visitIds_induction (hev : ∀ m e, P m → e.Synthesized → P (processEvent env e m))
    (listed : List Node) (types : List NodeType) (t : NodeType) :
    ∀ (ids : List Nat) (m : DistributedJobManager), P m → P (visitIds env listed types t ids m).1
  | [], _, h => h
  | i :: ids, m, h => by
    rw [visitIds]
    split
    · exact visitIds_induction hev listed types t ids m h
    · exact h
    · next e he => exact visitIds_induction hev listed types t ids _ (hev m e h (visitAction_lost he))
    · exact visitIds_induction hev listed types t ids _ (retireReplaced_induction P hev t i _ m h)

theorem listSecondLoop_induction (hev : ∀ m e, P m → e.Synthesized → P (processEvent env e m))
    (listed : List Node) (types : List NodeType) :
    ∀ (ts : List NodeType) (m : DistributedJobManager), P m → P (listSecondLoop env listed types ts m).1
  | [], _, h => h
  | t :: ts, m, h => by
    have hv := visitIds_induction P hev listed types t ((m.jobNodes.nodes t).map (·.id)) m h
    rw [listSecondLoop]
    rcases hr : visitIds env listed types t ((m.jobNodes.nodes t).map (·.id)) m with ⟨m', _ | _⟩ <;>
      rw [hr] at hv ⊢
    · exact hv
    · exact listSecondLoop_induction hev listed types ts m' hv

theorem listFirstLoop_induction {nodes : List Node}
    (hlisted : ∀ m n, n ∈ nodes → P m → P (processEvent env (listedEvent n) (listedNodeUpdate n m)))
    (types : List NodeType) :
    ∀ (l : List Node), l ⊆ nodes → ∀ (m : DistributedJobManager), P m →
      P (listFirstLoop env types l m).1
  | [], _, _, h => h
  | n :: l, hl, m, h => by
    rw [listFirstLoop]
    split_ifs
    · exact listFirstLoop_induction hlisted types l (fun x hx => hl (.tail _ hx)) _
        (hlisted m n (hl (.head _)) h)
    · exact h

theorem processListNodes_induction {nodes : List Node}
    (hev : ∀ m e, P m → e.Synthesized → P (processEvent env e m))
    (hlisted : ∀ m n, n ∈ nodes → P m → P (processEvent env (listedEvent n) (listedNodeUpdate n m)))
    (m : DistributedJobManager) (h : P m) : P (processListNodes env nodes m).1 := by
  have h₁ := listFirstLoop_induction P hlisted m.jobNodes.types nodes (fun _ hx => hx) m h
  unfold processListNodes
  rcases hr : listFirstLoop env m.jobNodes.types nodes m with ⟨m', _ | _⟩ <;> rw [hr] at h₁
  · exact h₁
  · exact listSecondLoop_induction P hev nodes _ _ m' h₁

end Induction

section Exited

variable {m : DistributedJobManager}

@[simp] theorem listedNodeUpdate_exited (node : Node) : (listedNodeUpdate node m).exited = m.exited := by
  unfold listedNodeUpdate
  dsimp only
  split
  · split_ifs <;> simp
  · split_ifs <;> simp

end Exited

end DistJobManager
