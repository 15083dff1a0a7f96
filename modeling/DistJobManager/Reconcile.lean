import DistJobManager.ListNodes
import DistJobManager.Heartbeat

/-! The passes that feed `_process_event` events they synthesize, `_process_list_nodes`, the
heartbeat monitor and diagnosis actions, against the store they leave. -/

namespace DistJobManager

/-- Every node stored in `s` under a key other than `k` is stored in `s'` as it was. -/
def OthersKept (k : NodeType × Nat) (s s' : JobNodes) : Prop :=
  ∀ t i n, (t, i) ≠ k → s.jobNode t i = some n → s'.jobNode t i = some n

/-- Outside `K`, `s'` stores what `s` does; a free key stays free or gets a relaunch replacement. -/
def Framed (K : NodeType × Nat → Prop) (s s' : JobNodes) : Prop :=
  ∀ (t : NodeType) (i : Nat), ¬K (t, i) → s'.jobNode t i = s.jobNode t i ∨
    s.jobNode t i = none ∧ (∃ j, K (t, j)) ∧ ∃ x : Node, s'.jobNode t i = some (x.relaunchedAs i)

namespace Framed

variable {K K' : NodeType × Nat → Prop} {s s₁ s₂ : JobNodes} {t : NodeType} {i : Nat} {n : Node}

theorem refl (K : NodeType × Nat → Prop) (s : JobNodes) : Framed K s s := fun _ _ _ => .inl rfl

theorem trans (h₁ : Framed K s s₁) (h₂ : Framed K s₁ s₂) : Framed K s s₂ := by
  intro t i hk
  rcases h₁ t i hk with e₁ | ⟨e₀, hj, x, e₁⟩ <;> rcases h₂ t i hk with e₂ | ⟨e₂₀, hj', y, e₂⟩
  · exact .inl (e₂.trans e₁)
  · exact .inr ⟨e₁.symm.trans e₂₀, hj', y, e₂⟩
  · exact .inr ⟨e₀, hj, x, e₂.trans e₁⟩
  · simp [e₁] at e₂₀

theorem mono (h : Framed K s₁ s₂) (hK : ∀ k, K k → K' k) : Framed K' s₁ s₂ := by
  intro t i hk
  rcases h t i fun h' => hk (hK _ h') with e | ⟨e₀, ⟨j, hj⟩, e⟩
  · exact .inl e
  · exact .inr ⟨e₀, ⟨j, hK _ hj⟩, e⟩

theorem stored (h : Framed K s₁ s₂) (hk : ¬K (t, i)) (hn : s₁.jobNode t i = some n) :
    s₂.jobNode t i = some n := by
  rcases h t i hk with e | ⟨e, -⟩
  · rw [e, hn]
  · simp [hn] at e

theorem eq_of_type (h : Framed K s₁ s₂) (ht : ∀ j, ¬K (t, j)) : s₂.jobNode t i = s₁.jobNode t i := by
  rcases h t i (ht i) with e | ⟨-, ⟨j, hj⟩, -⟩
  · exact e
  · exact absurd hj (ht j)

theorem othersKept {k : NodeType × Nat} (h : Framed (· = k) s₁ s₂) : OthersKept k s₁ s₂ :=
  fun _ _ _ hk hn => h.stored hk hn

theorem updateJobNode (hk : K n.key) : Framed K s (s.updateJobNode n) := by
  intro t i hti
  left
  rw [JobNodes.jobNode_updateJobNode, if_neg]
  rintro ⟨rfl, rfl⟩
  exact hti hk

theorem relaunchNode (env : ManagerEnv) {node : Node} {m : DistributedJobManager} (hk : K node.key)
    (h₀ : Framed K s m.jobNodes) : Framed K s (DistJobManager.relaunchNode env node m).jobNodes := by
  have hk' : K (node.type, node.id) := hk
  refine h₀.trans ?_
  cases hm : node.type.hasNodeManager
  · rw [relaunchNode_of_not_manager env m hm]
    exact refl K _
  · intro t i hti
    rw [relaunchNode_jobNode env m hm, if_neg fun h : node.type = t ∧ node.id = i => hti (h.1 ▸ h.2 ▸ hk')]
    split_ifs with h
    · obtain ⟨rfl, rfl⟩ := h
      exact .inr ⟨JobNodes.jobNode_nextId _ _, ⟨node.id, hk'⟩, _, rfl⟩
    · exact .inl rfl

theorem processEvent (env : ManagerEnv) (e : NodeEvent) (m : DistributedJobManager) :
    Framed (· = e.node.key) m.jobNodes (DistJobManager.processEvent env e m).jobNodes :=
  processEvent_jobNodes env e m (refl _ _) (fun _ _ _ hk _ => updateJobNode hk)
    fun _ _ hk _ h₀ => relaunchNode env hk h₀

theorem listedNodeUpdate (node : Node) (m : DistributedJobManager) :
    Framed (· = node.key) m.jobNodes (DistJobManager.listedNodeUpdate node m).jobNodes := by
  have h₁ : Framed (· = node.key) m.jobNodes (if m.jobNodes.jobNode node.type node.id = none ∧
      node.status ≠ .deleted then m.write node else m).jobNodes := by
    split_ifs
    · exact updateJobNode rfl
    · exact refl _ _
  unfold DistJobManager.listedNodeUpdate
  dsimp only
  generalize (if m.jobNodes.jobNode node.type node.id = none ∧ node.status ≠ .deleted then m.write node
      else m) = m₁ at h₁ ⊢
  split
  · next x hx =>
    obtain ⟨-, ht, hi⟩ := JobNodes.jobNode_some hx
    split_ifs
    · exact h₁.trans (updateJobNode (by simp [Node.key, ht, hi]))
    · exact h₁
  · exact h₁

end Framed

section Types

variable {s : JobNodes} {t : NodeType} {i : Nat} {n : Node}

theorem JobNodes.mem_types : t ∈ s.types ↔ (s.byType t).isSome := by
  simp [JobNodes.types, NodeType.mem_all]

theorem JobNodes.isSome_byType_of_jobNode (h : s.jobNode t i = some n) : (s.byType t).isSome := by
  unfold JobNodes.jobNode JobNodes.nodes at h
  cases hb : s.byType t <;> simp_all

theorem JobNodes.mem_ids : i ∈ (s.nodes t).map (·.id) ↔ (s.jobNode t i).isSome := by
  constructor
  · rintro h
    obtain ⟨x, hx, rfl⟩ := List.mem_map.mp h
    simp [JobNodes.jobNode_of_mem hx]
  · intro h
    obtain ⟨x, hx⟩ := Option.isSome_iff_exists.mp h
    obtain ⟨hm, -, rfl⟩ := JobNodes.jobNode_some hx
    exact List.mem_map_of_mem _ hm

theorem JobNodes.types_updateJobNode (h : (s.byType n.type).isSome) :
    (s.updateJobNode n).types = s.types := by
  refine List.filter_congr fun t _ => ?_
  rw [JobNodes.byType_updateJobNode]
  by_cases ht : t = n.type
  · subst ht
    simp [h]
  · rw [Function.update_noteq ht]

theorem types_relaunchNode (env : ManagerEnv) {node : Node} {m : DistributedJobManager}
    (h : (m.jobNodes.byType node.type).isSome) :
    (relaunchNode env node m).jobNodes.types = m.jobNodes.types := by
  cases hm : node.type.hasNodeManager
  · rw [relaunchNode_of_not_manager env m hm]
  · rw [relaunchNode_of_manager env m hm]
    dsimp only
    rw [JobNodes.types_updateJobNode, JobNodes.types_updateJobNode] <;>
      simp [JobNodes.byType_updateJobNode, Node.relaunchedAs, h]

theorem types_processEvent (env : ManagerEnv) (e : NodeEvent) (m : DistributedJobManager) :
    (processEvent env e m).jobNodes.types = m.jobNodes.types :=
  processEvent_jobNodes (R := fun s => s.types = m.jobNodes.types) env e m rfl
    (fun _ n hcur hk _ => JobNodes.types_updateJobNode
      (by rw [show n.type = e.node.type from congrArg Prod.fst hk]; exact JobNodes.isSome_byType_of_jobNode hcur))
    fun m' node _ hn h₀ => by
      obtain ⟨x, hx, -⟩ := Option.map_eq_some'.mp hn
      rw [types_relaunchNode env (JobNodes.isSome_byType_of_jobNode hx), h₀]

theorem types_listedNodeUpdate {node : Node} {m : DistributedJobManager}
    (h : node.type ∈ m.jobNodes.types) : (listedNodeUpdate node m).jobNodes.types = m.jobNodes.types := by
  have h₁ : (if m.jobNodes.jobNode node.type node.id = none ∧ node.status ≠ .deleted then m.write node
      else m).jobNodes.types = m.jobNodes.types := by
    split_ifs
    · exact JobNodes.types_updateJobNode (JobNodes.mem_types.mp h)
    · rfl
  unfold listedNodeUpdate
  dsimp only
  generalize (if m.jobNodes.jobNode node.type node.id = none ∧ node.status ≠ .deleted then m.write node
      else m) = m₁ at h₁ ⊢
  split
  · next x hx =>
    split_ifs
    · obtain ⟨-, hxt, -⟩ := JobNodes.jobNode_some hx
      rw [DistributedJobManager.write_jobNodes, JobNodes.types_updateJobNode, h₁]
      simpa [hxt] using JobNodes.isSome_byType_of_jobNode hx
    · exact h₁
  · exact h₁

end Types

section Event

variable {env : ManagerEnv} {e : NodeEvent} {cur : Node} {m : DistributedJobManager}

theorem processEvent_jobNode_key (hl : eventLookup env e m = some cur) (hx : e.eventType ≠ .exit) :
    ∃ n, (processEvent env e m).jobNodes.jobNode e.node.type e.node.id = some n ∧
      n.isReleased = e.node.isReleased ∧ n.rankIndex = cur.rankIndex ∧
      (n.status, n.exitReason) =
        if FlowRejected cur e then (cur.status, cur.exitReason) else (e.node.status, e.node.exitReason) := by
  by_cases hr : FlowRejected cur e
  · obtain ⟨-, ht, hi⟩ := JobNodes.jobNode_some (eventLookup_some hl).2
    rw [processEvent_rejected hl hr, if_neg hx, if_pos hr]
    exact ⟨cur.updateInfo e.node, by simp [JobNodes.jobNode_updateJobNode, ht, hi], rfl, rfl, rfl⟩
  · obtain ⟨f, hf, hs⟩ := not_flowRejected hr
    obtain ⟨oom, cfg, hsr⟩ := shouldRelaunch_node env m.jobStage m.enableRelaunchNode
      (lockedNode e (cur.updateInfo e.node)) f
    refine ⟨_, processEvent_jobNode_self hl hx hf hs, ?_⟩
    rw [if_neg hr]
    split <;> rw [hsr] <;> exact ⟨rfl, rfl, rfl⟩

theorem flowRejected_iff : FlowRejected cur e ↔
    (getNodeStateFlow cur.status e.eventType e.node.status).all (·.fromStatus = .succeeded) = true := by
  unfold FlowRejected
  cases getNodeStateFlow cur.status e.eventType e.node.status <;> simp

theorem processEvent_of_skip (h : skipDeletedEvent env e = true) : processEvent env e m = m := by
  simp [processEvent, eventLookup, h]

end Event

/-! The first loop: each listed node in turn, re-added when the live store lacks it, its
group brought to the listing, and then its event. -/

/-- A listed node's turn in the first loop of `_process_list_nodes`. -/
def listedStep (env : ManagerEnv) (m : DistributedJobManager) (node : Node) : DistributedJobManager :=
  processEvent env (listedEvent node) (listedNodeUpdate node m)

section FirstLoop

variable (env : ManagerEnv)

theorem listFirstLoop_eq (types : List NodeType) : ∀ (l : List Node) (m : DistributedJobManager),
    listFirstLoop env types l m =
      ((l.takeWhile fun n => n.type ∈ types).foldl (listedStep env) m, l.all fun n => n.type ∈ types)
  | [], _ => rfl
  | n :: l, m => by
    by_cases hn : n.type ∈ types
    · rw [listFirstLoop, if_pos hn, listFirstLoop_eq types l]
      simp [hn, listedStep]
    · simp [listFirstLoop, hn]

theorem listFirstLoop_of_types (types : List NodeType) : ∀ (l : List Node) (m : DistributedJobManager),
    (∀ n ∈ l, n.type ∈ types) → listFirstLoop env types l m = (l.foldl (listedStep env) m, true)
  | [], _, _ => rfl
  | n :: l, m, h => by
    rw [listFirstLoop, if_pos (h n (List.mem_cons_self _ _))]
    exact listFirstLoop_of_types types l _ fun x hx => h x (List.mem_cons_of_mem _ hx)

theorem Framed.foldl_listedStep : ∀ (l : List Node) (m : DistributedJobManager),
    Framed (· ∈ l.map Node.key) m.jobNodes (l.foldl (listedStep env) m).jobNodes
  | [], _ => Framed.refl _ _
  | n :: l, m => by
    have h₁ : Framed (· = n.key) m.jobNodes (listedStep env m n).jobNodes :=
      (Framed.listedNodeUpdate n m).trans (Framed.processEvent env (listedEvent n) _)
    exact (h₁.mono fun k hk => hk ▸ List.mem_cons_self _ _).trans
      ((Framed.foldl_listedStep l _).mono fun k hk => List.mem_cons_of_mem _ hk)

theorem types_foldl_listedStep : ∀ (l : List Node) (m : DistributedJobManager),
    (∀ n ∈ l, n.type ∈ m.jobNodes.types) → (l.foldl (listedStep env) m).jobNodes.types = m.jobNodes.types
  | [], _, _ => rfl
  | n :: l, m, h => by
    have h₁ : (listedStep env m n).jobNodes.types = m.jobNodes.types := by
      rw [listedStep, types_processEvent, types_listedNodeUpdate (h n (.head _))]
    rw [List.foldl_cons, types_foldl_listedStep l _ (fun x hx => h₁ ▸ h x (.tail _ hx)), h₁]

theorem isSome_listedNodeUpdate {node : Node} (hs : node.status ≠ .deleted) (m : DistributedJobManager) :
    ((listedNodeUpdate node m).jobNodes.jobNode node.type node.id).isSome := by
  have h₁ : ((if m.jobNodes.jobNode node.type node.id = none ∧ node.status ≠ .deleted then m.write node
      else m).jobNodes.jobNode node.type node.id).isSome := by
    by_cases h : m.jobNodes.jobNode node.type node.id = none
    · simp [h, hs, JobNodes.jobNode_updateJobNode]
    · simp [h, Option.isSome_iff_ne_none]
  unfold listedNodeUpdate
  dsimp only
  generalize (if m.jobNodes.jobNode node.type node.id = none ∧ node.status ≠ .deleted then m.write node
      else m) = m₁ at h₁ ⊢
  split
  · next x hx =>
    obtain ⟨-, ht, hi⟩ := JobNodes.jobNode_some hx
    split_ifs
    · simp [JobNodes.jobNode_updateJobNode, ht, hi]
    · exact h₁
  · exact h₁

theorem isSome_foldl_listedStep {t : NodeType} {i : Nat} : ∀ (l : List Node) (m : DistributedJobManager),
    ((m.jobNodes.jobNode t i).isSome ∨ ∃ n ∈ l, n.key = (t, i) ∧ n.status ≠ .deleted) →
      ((l.foldl (listedStep env) m).jobNodes.jobNode t i).isSome
  | [], _, h => h.resolve_right (by simp)
  | n :: l, m, h => by
    have kept : (m.jobNodes.jobNode t i).isSome → ((listedStep env m n).jobNodes.jobNode t i).isSome :=
      fun hs => by
        obtain ⟨x, hx⟩ := Option.isSome_iff_exists.mp hs
        obtain ⟨x₁, hx₁, -⟩ := HeartbeatKept.listedNodeUpdate n m t i x hx
        obtain ⟨x₂, hx₂, -⟩ := HeartbeatKept.processEvent env (listedEvent n) _ t i x₁ hx₁
        simp [listedStep, hx₂]
    refine isSome_foldl_listedStep l _ ?_
    rcases h with h | ⟨x, hx, hk, hs⟩
    · exact .inl (kept h)
    rcases List.mem_cons.mp hx with rfl | hx
    · obtain ⟨rfl, rfl⟩ := Prod.mk.inj hk
      obtain ⟨y, hy⟩ := Option.isSome_iff_exists.mp (isSome_listedNodeUpdate hs m)
      obtain ⟨y₂, hy₂, -⟩ := HeartbeatKept.processEvent env (listedEvent x) _ x.type x.id y hy
      exact .inl (by simp [listedStep, hy₂])
    · exact .inr ⟨x, hx, hk, hs⟩

end FirstLoop

/-! The second loop, over the store the first left: what it does at one key, then over the ids
of a type, then over the types. -/

/-- What the second loop leaves under the key of `n`, the node it finds there. -/
def Reconciled (env : ManagerEnv) (listed : List Node) (n n' : Node) : Prop :=
  if n.isReleased = true ∨ n.id ∈ (listed.filter (·.type = n.type)).map (·.id) then n' = n
  else if n.status ≠ .initial then
    if skipDeletedEvent env (lostEvent n) = true then n' = n
    else n'.isReleased = true ∧ n'.exitReason = n.exitReason ∧
      n'.status = if n.status = .succeeded ∨ n.status = .finished then n.status else .deleted
  else if (∃ x ∈ listed, x.type = n.type ∧ x.rankIndex = n.rankIndex ∧ n.id < x.id) ∧
      skipDeletedEvent env (relaunchedEvent n) = false then
    n'.isReleased = true ∧ n'.status = .deleted ∧ n'.exitReason = some .relaunched
  else n' = n

instance (env : ManagerEnv) (listed : List Node) (n n' : Node) : Decidable (Reconciled env listed n n') := by
  unfold Reconciled
  infer_instance

section Visit

variable {env : ManagerEnv} (listed : List Node) (types : List NodeType) {t : NodeType} {i : Nat}
  {m : DistributedJobManager} {n : Node}

theorem visitAction_of_jobNode (hn : m.jobNodes.jobNode t i = some n) :
    visitAction listed types t i m.jobNodes =
      if n.isReleased then .skip else if t ∉ types then .raise
      else if n.id ∈ (listed.filter (·.type = n.type)).map (·.id) then .skip
      else if n.status ≠ .initial then .lost (lostEvent n) else .retire (listed.filter (·.type = n.type)) := by
  obtain ⟨-, rfl, -⟩ := JobNodes.jobNode_some hn
  simp only [visitAction, hn]

theorem flowRejected_lost (hs : n.status ≠ .initial) :
    FlowRejected n (lostEvent n) ↔ n.status = .succeeded ∨ n.status = .finished ∨ n.status = .deleted := by
  rw [flowRejected_iff]
  dsimp only [lostEvent]
  revert hs
  cases n.status <;> decide

theorem processEvent_lost (hs : n.status ≠ .initial) (hn : m.jobNodes.jobNode n.type n.id = some n) :
    ∃ n', (processEvent env (lostEvent n) m).jobNodes.jobNode n.type n.id = some n' ∧
      if skipDeletedEvent env (lostEvent n) = true then n' = n
      else n'.isReleased = true ∧ n'.exitReason = n.exitReason ∧
        n'.status = if n.status = .succeeded ∨ n.status = .finished then n.status else .deleted := by
  by_cases hskip : skipDeletedEvent env (lostEvent n) = true
  · exact ⟨n, by rw [processEvent_of_skip hskip]; exact hn, by rw [if_pos hskip]⟩
  have hl : eventLookup env (lostEvent n) m = some n := by simpa [eventLookup, hskip] using hn
  obtain ⟨n', hn', hrel, -, hst⟩ := processEvent_jobNode_key hl (by simp [lostEvent])
  refine ⟨n', hn', ?_⟩
  rw [if_neg hskip]
  refine ⟨hrel, ?_⟩
  by_cases hrj : FlowRejected n (lostEvent n)
  · rw [if_pos hrj, Prod.mk.injEq] at hst
    rcases (flowRejected_lost hs).mp hrj with h' | h' | h' <;> simp [hst.1, hst.2, h']
  · rw [if_neg hrj, Prod.mk.injEq] at hst
    rw [flowRejected_lost hs] at hrj
    exact ⟨hst.2, by rw [hst.1, if_neg fun h => hrj (h.elim .inl (.inr ∘ .inl))]; rfl⟩

theorem skipDeletedEvent_relaunchedEvent {x : Node} (ht : x.type = n.type) (hr : x.rankIndex = n.rankIndex)
    (hi : x.id = n.id) : skipDeletedEvent env (relaunchedEvent x) = skipDeletedEvent env (relaunchedEvent n) := by
  simp [skipDeletedEvent, relaunchedEvent, podUniqueLabels, ht, hr, hi]

theorem processEvent_relaunched {x : Node} (hskip : skipDeletedEvent env (relaunchedEvent x) = false)
    (hx : m.jobNodes.jobNode x.type x.id = some x)
    (hc : x.status = .initial ∨ x.isReleased = true ∧ x.status = .deleted ∧ x.exitReason = some .relaunched) :
    ∃ x', (processEvent env (relaunchedEvent x) m).jobNodes.jobNode x.type x.id = some x' ∧
      x'.rankIndex = x.rankIndex ∧ x'.isReleased = true ∧ x'.status = .deleted ∧
      x'.exitReason = some .relaunched := by
  have hl : eventLookup env (relaunchedEvent x) m = some x := by simpa [eventLookup, hskip] using hx
  obtain ⟨x', hx', hrel, hrank, hst⟩ := processEvent_jobNode_key hl (by simp [relaunchedEvent])
  refine ⟨x', hx', hrank, hrel, ?_⟩
  rcases hc with hi | ⟨-, hs, he⟩
  · rw [if_neg (by rw [flowRejected_iff]; dsimp only [relaunchedEvent]; rw [hi]; decide)] at hst
    exact Prod.mk.inj hst
  · split_ifs at hst <;> simpa [hs, he, relaunchedEvent] using hst

theorem retireEvent_key {x : Node} {s : JobNodes} {e : NodeEvent} (h : retireEvent t i x s = some e) :
    e.node.key = (t, i) := by
  unfold retireEvent at h
  split at h
  · next node hn =>
    obtain ⟨-, ht, hi⟩ := JobNodes.jobNode_some hn
    split_ifs at h
    cases h
    simp [relaunchedEvent, Node.key, ht, hi]
  · cases h

theorem Framed.retireReplaced (env : ManagerEnv) (t : NodeType) (i : Nat) :
    ∀ (xs : List Node) (m : DistributedJobManager),
      Framed (· = (t, i)) m.jobNodes (DistJobManager.retireReplaced env t i xs m).jobNodes
  | [], _ => Framed.refl _ _
  | x :: xs, m => by
    rw [DistJobManager.retireReplaced]
    refine Framed.trans ?_ (Framed.retireReplaced env t i xs _)
    split
    · next e he => exact retireEvent_key he ▸ Framed.processEvent env e m
    · exact Framed.refl _ _

theorem retireReplaced_of_skip (hskip : skipDeletedEvent env (relaunchedEvent n) = true)
    (hn : m.jobNodes.jobNode t i = some n) : ∀ xs, retireReplaced env t i xs m = m
  | [] => rfl
  | x :: xs => by
    rw [retireReplaced]
    have h₁ : ∀ e, retireEvent t i x m.jobNodes = some e → processEvent env e m = m := fun e he => by
      simp only [retireEvent, hn] at he
      split_ifs at he
      cases he
      exact processEvent_of_skip hskip
    split
    · next e he => rw [h₁ e he]; exact retireReplaced_of_skip hskip hn xs
    · exact retireReplaced_of_skip hskip hn xs

theorem retireReplaced_retires (hnt : n.type = t)
    (hskip : skipDeletedEvent env (relaunchedEvent n) = false) :
    ∀ (xs : List Node) (m : DistributedJobManager) (x : Node), m.jobNodes.jobNode t i = some x →
      x.rankIndex = n.rankIndex → x.id = n.id →
      (x.status = .initial ∨ x.isReleased = true ∧ x.status = .deleted ∧ x.exitReason = some .relaunched) →
      ∃ x', (retireReplaced env t i xs m).jobNodes.jobNode t i = some x' ∧ x'.rankIndex = n.rankIndex ∧
        if ∃ y ∈ xs, n.rankIndex = y.rankIndex ∧ n.id < y.id then
          x'.isReleased = true ∧ x'.status = .deleted ∧ x'.exitReason = some .relaunched
        else x' = x
  | [], _, x, hx, hr, _, _ => ⟨x, hx, hr, by simp⟩
  | y :: ys, m, x, hx, hr, hi, hc => by
    obtain ⟨-, ht, hxi⟩ := JobNodes.jobNode_some hx
    rw [retireReplaced]
    by_cases hy : n.rankIndex = y.rankIndex ∧ n.id < y.id
    · have he : retireEvent t i y m.jobNodes = some (relaunchedEvent x) := by
        simp [retireEvent, hx, hr, hi, hy]
      have hskip' : skipDeletedEvent env (relaunchedEvent x) = false := by
        rw [skipDeletedEvent_relaunchedEvent (ht.trans hnt.symm) hr hi]
        exact hskip
      obtain ⟨x₁, hx₁, hr₁, hrel₁⟩ := processEvent_relaunched hskip' (by rw [ht, hxi]; exact hx) hc
      rw [ht, hxi] at hx₁
      obtain ⟨-, -, hi₁⟩ := JobNodes.jobNode_some hx₁
      obtain ⟨x', hx', hr', hP⟩ := retireReplaced_retires hnt hskip ys _ x₁ hx₁ (hr₁.trans hr)
        (hi₁.trans (hxi.symm.trans hi)) (.inr hrel₁)
      refine ⟨x', by simpa only [he] using hx', hr', ?_⟩
      rw [if_pos ⟨y, .head _, hy⟩]
      split_ifs at hP
      · exact hP
      · exact hP ▸ hrel₁
    · have he : retireEvent t i y m.jobNodes = none := by
        simp only [retireEvent, hx, hr, hi]
        exact if_neg hy
      obtain ⟨x', hx', hr', hP⟩ := retireReplaced_retires hnt hskip ys m x hx hr hi hc
      refine ⟨x', by simpa only [he] using hx', hr', ?_⟩
      have hiff : (∃ y' ∈ y :: ys, n.rankIndex = y'.rankIndex ∧ n.id < y'.id) ↔
          ∃ y' ∈ ys, n.rankIndex = y'.rankIndex ∧ n.id < y'.id := by
        simp only [List.mem_cons, exists_eq_or_imp, hy, false_or]
      simpa only [hiff] using hP

theorem visitIds_cons (ht : t ∈ types) (ids : List Nat) (m : DistributedJobManager) :
    ∃ m₁, visitIds env listed types t (i :: ids) m = visitIds env listed types t ids m₁ ∧
      Framed (· = (t, i)) m.jobNodes m₁.jobNodes ∧
      ∀ n, m.jobNodes.jobNode t i = some n →
        ∃ n', m₁.jobNodes.jobNode t i = some n' ∧ Reconciled env listed n n' := by
  cases hn : m.jobNodes.jobNode t i with
  | none =>
    refine ⟨m, by simp [visitIds, visitAction, hn], Framed.refl _ _, by simp⟩
  | some n =>
    obtain ⟨-, hnt, hni⟩ := JobNodes.jobNode_some hn
    have hn' : m.jobNodes.jobNode n.type n.id = some n := by rw [hnt, hni]; exact hn
    have hv := visitAction_of_jobNode listed types hn
    simp only [Option.some.injEq, forall_eq']
    by_cases hr : n.isReleased = true ∨ n.id ∈ (listed.filter (·.type = n.type)).map (·.id)
    · refine ⟨m, ?_, Framed.refl _ _, n, hn, by unfold Reconciled; rw [if_pos hr]⟩
      rw [visitIds, hv]
      rcases hr with hr | hr
      · rw [if_pos hr]
      · rw [if_pos hr]
        split_ifs <;> rfl
    have hr' := hr
    rw [not_or, Bool.not_eq_true] at hr
    rw [visitIds, hv, if_neg (by simp [hr.1]), if_neg (not_not.mpr ht), if_neg hr.2]
    by_cases hs : n.status ≠ .initial
    · rw [if_pos hs]
      refine ⟨_, rfl, hnt ▸ hni ▸ Framed.processEvent env (lostEvent n) m, ?_⟩
      obtain ⟨n', h', hP⟩ := processEvent_lost hs hn'
      refine ⟨n', by rw [← hnt, ← hni]; exact h', ?_⟩
      unfold Reconciled
      rw [if_neg hr', if_pos hs]
      exact hP
    · rw [if_neg hs]
      rw [not_not] at hs
      refine ⟨_, rfl, Framed.retireReplaced env t i _ m, ?_⟩
      simp only [Reconciled, if_neg hr', if_neg (not_not.mpr hs)]
      by_cases hskip : skipDeletedEvent env (relaunchedEvent n) = true
      · refine ⟨n, by rw [retireReplaced_of_skip hskip hn]; exact hn, ?_⟩
        rw [if_neg fun h => by simp [hskip] at h]
      · rw [Bool.not_eq_true] at hskip
        obtain ⟨n', h', -, hP⟩ := retireReplaced_retires hnt hskip _ m n hn rfl rfl (.inl hs)
        refine ⟨n', h', ?_⟩
        have hiff : (∃ y ∈ listed.filter (·.type = n.type), n.rankIndex = y.rankIndex ∧ n.id < y.id) ↔
            ∃ x ∈ listed, x.type = n.type ∧ x.rankIndex = n.rankIndex ∧ n.id < x.id := by
          simp only [List.mem_filter, decide_eq_true_eq, and_assoc]
          exact exists_congr fun x => and_congr_right fun _ =>
            ⟨fun ⟨a, b, c⟩ => ⟨a, b.symm, c⟩, fun ⟨a, b, c⟩ => ⟨a, b.symm, c⟩⟩
        by_cases hc : ∃ x ∈ listed, x.type = n.type ∧ x.rankIndex = n.rankIndex ∧ n.id < x.id
        · rw [if_pos (hiff.mpr hc)] at hP
          rw [if_pos ⟨hc, hskip⟩]
          exact hP
        · rw [if_neg (hiff.not.mpr hc)] at hP
          rw [if_neg fun h => hc h.1]
          exact hP

/-- The ids of one type, visited in turn: no raise, other keys kept, each left `Reconciled`. -/
theorem visitIds_spec (ht : t ∈ types) : ∀ (ids : List Nat) (m : DistributedJobManager), ids.Nodup →
    (visitIds env listed types t ids m).2 = true ∧
      Framed (fun k => k.1 = t ∧ k.2 ∈ ids) m.jobNodes (visitIds env listed types t ids m).1.jobNodes ∧
      ∀ i ∈ ids, ∀ n, m.jobNodes.jobNode t i = some n →
        ∃ n', (visitIds env listed types t ids m).1.jobNodes.jobNode t i = some n' ∧
          Reconciled env listed n n'
  | [], m, _ => ⟨rfl, Framed.refl _ _, by simp⟩
  | i :: ids, m, hnd => by
    rw [List.nodup_cons] at hnd
    obtain ⟨m₁, heq, hf, hout⟩ := visitIds_cons (i := i) listed types ht ids m
    obtain ⟨h₂, hf', hout'⟩ := visitIds_spec ht ids m₁ hnd.2
    rw [heq]
    refine ⟨h₂, (hf.mono ?_).trans (hf'.mono ?_), fun j hj n hn => ?_⟩
    · rintro _ rfl
      exact ⟨rfl, List.mem_cons_self _ _⟩
    · rintro k ⟨h₁, h₂⟩
      exact ⟨h₁, List.mem_cons_of_mem _ h₂⟩
    rcases List.mem_cons.mp hj with rfl | hj
    · obtain ⟨n', hn', hr⟩ := hout n hn
      exact ⟨n', hf'.stored (fun h => hnd.1 h.2) hn', hr⟩
    · exact hout' j hj n (hf.stored (fun h => hnd.1 ((Prod.mk.inj h).2 ▸ hj)) hn)

end Visit

section SecondLoop

variable (env : ManagerEnv) (listed : List Node) (types : List NodeType)

/-- The second loop: no raise, each key stored when it begins left as `Reconciled` says. -/
theorem listSecondLoop_spec : ∀ (ts : List NodeType) (m : DistributedJobManager), ts.Nodup →
    (∀ t ∈ ts, t ∈ types) →
    (listSecondLoop env listed types ts m).2 = true ∧
      Framed (fun k => k.1 ∈ ts ∧ (m.jobNodes.jobNode k.1 k.2).isSome) m.jobNodes
        (listSecondLoop env listed types ts m).1.jobNodes ∧
      ∀ t ∈ ts, ∀ i n, m.jobNodes.jobNode t i = some n →
        ∃ n', (listSecondLoop env listed types ts m).1.jobNodes.jobNode t i = some n' ∧
          Reconciled env listed n n'
  | [], m, _, _ => ⟨rfl, Framed.refl _ _, by simp⟩
  | t :: ts, m, hnd, hts => by
    rw [List.nodup_cons] at hnd
    obtain ⟨h₂, hf, hout⟩ := visitIds_spec listed types (hts t (List.mem_cons_self _ _)) _ m
      (JobNodes.nodes_ids m.jobNodes t)
    rw [listSecondLoop]
    rcases hr : visitIds env listed types t ((m.jobNodes.nodes t).map (·.id)) m with ⟨m₂, _ | _⟩ <;>
      rw [hr] at h₂ hf hout ⊢
    · cases h₂
    dsimp only at hf hout ⊢
    obtain ⟨h₃, hf', hout'⟩ := listSecondLoop_spec ts m₂ hnd.2 fun t' h => hts t' (List.mem_cons_of_mem _ h)
    have hother : ∀ t', t' ≠ t → ∀ i, m₂.jobNodes.jobNode t' i = m.jobNodes.jobNode t' i :=
      fun t' h _ => hf.eq_of_type fun _ hj => h hj.1
    refine ⟨h₃, (hf.mono ?_).trans (hf'.mono ?_), fun t' ht' i n hn => ?_⟩
    · rintro ⟨t', j⟩ ⟨rfl, hj⟩
      exact ⟨List.mem_cons_self _ _, JobNodes.mem_ids.mp hj⟩
    · rintro ⟨t', j⟩ ⟨ht', hj⟩
      have hne : t' ≠ t := fun h => hnd.1 (h ▸ ht')
      exact ⟨List.mem_cons_of_mem _ ht', by rwa [← hother t' hne j]⟩
    rcases List.mem_cons.mp ht' with rfl | ht'
    · obtain ⟨n', hn', hrc⟩ := hout i (JobNodes.mem_ids.mpr (by simp [hn])) n hn
      exact ⟨n', hf'.stored (fun h => hnd.1 h.1) hn', hrc⟩
    · have hne : t' ≠ t := fun h => hnd.1 (h ▸ ht')
      exact hout' t' ht' i n (by rw [hother t' hne i]; exact hn)

end SecondLoop

section Pass

variable (env : ManagerEnv) {m : DistributedJobManager} {nodes : List Node}

theorem processListNodes_eq (h : ∀ n ∈ nodes, (m.jobNodes.byType n.type).isSome) :
    processListNodes env nodes m =
      listSecondLoop env nodes m.jobNodes.types m.jobNodes.types (nodes.foldl (listedStep env) m) := by
  have hmem : ∀ n ∈ nodes, n.type ∈ m.jobNodes.types := fun n hn => JobNodes.mem_types.mpr (h n hn)
  rw [processListNodes, listFirstLoop_of_types env _ nodes m hmem]
  dsimp only
  rw [types_foldl_listedStep env nodes m hmem]

theorem processListNodes_second (h : ∀ n ∈ nodes, (m.jobNodes.byType n.type).isSome) :
    (processListNodes env nodes m).2 = true ∧
      Framed (fun k => ((nodes.foldl (listedStep env) m).jobNodes.jobNode k.1 k.2).isSome)
        (nodes.foldl (listedStep env) m).jobNodes (processListNodes env nodes m).1.jobNodes ∧
      ∀ t i n, (nodes.foldl (listedStep env) m).jobNodes.jobNode t i = some n →
        ∃ n', (processListNodes env nodes m).1.jobNodes.jobNode t i = some n' ∧ Reconciled env nodes n n' := by
  have htypes := types_foldl_listedStep env nodes m fun n hn => JobNodes.mem_types.mpr (h n hn)
  have hstored : ∀ t i n, (nodes.foldl (listedStep env) m).jobNodes.jobNode t i = some n → t ∈ m.jobNodes.types :=
    fun t i n hn => htypes ▸ JobNodes.mem_types.mpr (JobNodes.isSome_byType_of_jobNode hn)
  obtain ⟨h₂, hf, hout⟩ := listSecondLoop_spec env nodes m.jobNodes.types
    m.jobNodes.types (nodes.foldl (listedStep env) m) (NodeType.all_nodup.filter _) fun _ ht => ht
  rw [processListNodes_eq env h]
  exact ⟨h₂, hf.mono fun _ hk => hk.2, fun t i n hn => hout t (hstored t i n hn) i n hn⟩

theorem id_mem_listed_iff {listed : List Node} {n : Node} :
    n.id ∈ (listed.filter (·.type = n.type)).map (·.id) ↔ n.key ∈ listed.map Node.key := by
  simp only [List.mem_map, List.mem_filter, decide_eq_true_eq, Node.key, Prod.mk.injEq, and_assoc]

theorem jobNode_foldl_listedStep_of_unlisted {n : Node} (hn : n ∈ m.jobNodes.all)
    (hk : n.key ∉ nodes.map Node.key) :
    (nodes.foldl (listedStep env) m).jobNodes.jobNode n.type n.id = some n :=
  (Framed.foldl_listedStep env nodes m).stored hk (JobNodes.jobNode_of_mem (JobNodes.mem_all.mp hn))

end Pass

/-- A listed node of a type with no entry makes the pass raise there, before the second loop. -/
theorem processListNodes_of_unknown_type (env : ManagerEnv) (m : DistributedJobManager)
    {nodes : List Node} (h : ∃ n ∈ nodes, n.type ∉ m.jobNodes.types) :
    processListNodes env nodes m =
      ((nodes.takeWhile fun n => n.type ∈ m.jobNodes.types).foldl (listedStep env) m, false) := by
  have hall : (nodes.all fun n => n.type ∈ m.jobNodes.types) = false := by
    obtain ⟨n, hn, ht⟩ := h
    simpa using ⟨n, hn, ht⟩
  rw [processListNodes, listFirstLoop_eq, hall]

/-- A listed PS of a job without a PS entry: the lost running worker is never deleted. -/
theorem listed_unknown_type_stops_pass :
    let ps : Node := { type := .ps, id := 0, status := .running }
    let r := processListNodes goneEnv [ps] (oneNodeJob runningWorker)
    r.2 = false ∧ (r.1.jobNodes.jobNode .worker 0).map Node.status = some .running := by
  intro ps r
  rw [show r = _ from processListNodes_of_unknown_type goneEnv _ ⟨ps, List.mem_singleton_self _, by decide⟩]
  decide

/-- A pass keeps every stored node stored and settles each lost node by its deletion. -/
theorem processListNodes_reconciles (env : ManagerEnv) (m : DistributedJobManager)
    (nodes : List Node) (h : ∀ n ∈ nodes, (m.jobNodes.byType n.type).isSome) :
    let m' := (processListNodes env nodes m).1
    (∀ t i, ((m.jobNodes.jobNode t i).isSome ∨ ∃ n ∈ nodes, n.key = (t, i) ∧ n.status ≠ .deleted) →
      (m'.jobNodes.jobNode t i).isSome) ∧
    ∀ n ∈ m.jobNodes.all, n.status ≠ .initial → n.isReleased = false → n.key ∉ nodes.map Node.key →
      if skipDeletedEvent env ⟨.deleted, { n with isReleased := true, status := .deleted }⟩ then
        m'.jobNodes.jobNode n.type n.id = some n
      else ∃ n', m'.jobNodes.jobNode n.type n.id = some n' ∧ n'.isReleased = true ∧
        n'.status = if n.status = .succeeded ∨ n.status = .finished then n.status else .deleted := by
  obtain ⟨-, -, hout⟩ := processListNodes_second env h
  refine ⟨fun t i hti => ?_, fun n hn hs hr hk => ?_⟩
  · obtain ⟨x, hx⟩ := Option.isSome_iff_exists.mp (isSome_foldl_listedStep env nodes m hti)
    obtain ⟨n', hn', -⟩ := hout t i x hx
    simp [hn']
  obtain ⟨n', hn', hrc⟩ := hout _ _ n (jobNode_foldl_listedStep_of_unlisted env hn hk)
  have hl : ¬(n.isReleased = true ∨ n.id ∈ (nodes.filter (·.type = n.type)).map (·.id)) := by
    simp [hr, id_mem_listed_iff.not.mpr hk]
  unfold Reconciled lostEvent at hrc
  rw [if_neg hl, if_pos hs] at hrc
  by_cases hskip : skipDeletedEvent env ⟨.deleted, { n with isReleased := true, status := .deleted }⟩ = true
  · rw [if_pos hskip] at hrc ⊢
    rw [hn', hrc]
  · rw [if_neg hskip] at hrc ⊢
    exact ⟨n', hn', hrc.1, hrc.2.2⟩

theorem processListNodes_reconciles_lost_worker :
    let nodes : List Node := [{ type := .worker, id := 1, status := .running }]
    let m := oneNodeJob runningWorker
    (∀ n ∈ nodes, (m.jobNodes.byType n.type).isSome) ∧
      let m' := (processListNodes goneEnv nodes m).1
      (∀ t i, ((m.jobNodes.jobNode t i).isSome ∨ ∃ n ∈ nodes, n.key = (t, i) ∧ n.status ≠ .deleted) →
        (m'.jobNodes.jobNode t i).isSome) ∧
      ∀ n ∈ m.jobNodes.all, n.status ≠ .initial → n.isReleased = false → n.key ∉ nodes.map Node.key →
        if skipDeletedEvent goneEnv ⟨.deleted, { n with isReleased := true, status := .deleted }⟩ then
          m'.jobNodes.jobNode n.type n.id = some n
        else ∃ n', m'.jobNodes.jobNode n.type n.id = some n' ∧ n'.isReleased = true ∧
          n'.status = if n.status = .succeeded ∨ n.status = .finished then n.status else .deleted :=
  ⟨by decide, processListNodes_reconciles goneEnv _ _ (by decide)⟩

/-- A pass retires an `INITIAL` unlisted node that a listed node of its rank replaced. -/
theorem processListNodes_retires_replaced_nodes (env : ManagerEnv) (m : DistributedJobManager)
    (nodes : List Node) (h : ∀ n ∈ nodes, (m.jobNodes.byType n.type).isSome) :
    let m' := (processListNodes env nodes m).1
    ∀ n ∈ m.jobNodes.all, n.status = .initial → n.isReleased = false → n.key ∉ nodes.map Node.key →
      if (∃ x ∈ nodes, x.type = n.type ∧ x.rankIndex = n.rankIndex ∧ n.id < x.id) ∧
          skipDeletedEvent env ⟨.deleted,
            { n with isReleased := true, status := .deleted, exitReason := some .relaunched }⟩ = false
      then ∃ n', m'.jobNodes.jobNode n.type n.id = some n' ∧ n'.isReleased = true ∧
        n'.status = .deleted ∧ n'.exitReason = some .relaunched
      else m'.jobNodes.jobNode n.type n.id = some n := by
  intro m' n hn hs hr hk
  obtain ⟨-, -, hout⟩ := processListNodes_second env h
  obtain ⟨n', hn', hrc⟩ := hout _ _ n (jobNode_foldl_listedStep_of_unlisted env hn hk)
  have hl : ¬(n.isReleased = true ∨ n.id ∈ (nodes.filter (·.type = n.type)).map (·.id)) := by
    simp [hr, id_mem_listed_iff.not.mpr hk]
  unfold Reconciled relaunchedEvent at hrc
  rw [if_neg hl, if_neg (not_not.mpr hs)] at hrc
  split_ifs at hrc ⊢
  · exact ⟨n', hn', hrc⟩
  · rw [hn', hrc]

theorem processListNodes_retires_replaced_nodes_initial_worker :
    let nodes : List Node := [{ type := .worker, id := 1, status := .running }]
    let m := oneNodeJob { type := .worker, id := 0 }
    (∀ n ∈ nodes, (m.jobNodes.byType n.type).isSome) ∧
      let m' := (processListNodes goneEnv nodes m).1
      ∀ n ∈ m.jobNodes.all, n.status = .initial → n.isReleased = false → n.key ∉ nodes.map Node.key →
        if (∃ x ∈ nodes, x.type = n.type ∧ x.rankIndex = n.rankIndex ∧ n.id < x.id) ∧
            skipDeletedEvent goneEnv ⟨.deleted,
              { n with isReleased := true, status := .deleted, exitReason := some .relaunched }⟩ = false
        then ∃ n', m'.jobNodes.jobNode n.type n.id = some n' ∧ n'.isReleased = true ∧
          n'.status = .deleted ∧ n'.exitReason = some .relaunched
        else m'.jobNodes.jobNode n.type n.id = some n :=
  ⟨by decide, processListNodes_retires_replaced_nodes goneEnv _ _ (by decide)⟩

section ForcedFailure

variable {m : DistributedJobManager} {n : Node} {r : NodeExitReason}

theorem flowRejected_forcedFailure :
    FlowRejected n ⟨.deleted, { n with status := .failed, exitReason := some r }⟩ ↔
      ¬(n.status = .initial ∨ n.status = .pending ∨ n.status = .running) := by
  rw [flowRejected_iff]
  dsimp only
  cases n.status <;> decide

theorem processEvent_forcedFailure (env : ManagerEnv) (hr : isPositiveExit (some r) = true)
    (hn : m.jobNodes.jobNode n.type n.id = some n) :
    ∃ n', (processEvent env ⟨.deleted, { n with status := .failed, exitReason := some r }⟩ m).jobNodes.jobNode
        n.type n.id = some n' ∧
      (n'.status, n'.exitReason) = if n.status = .initial ∨ n.status = .pending ∨ n.status = .running
        then (.failed, some r) else (n.status, n.exitReason) := by
  have hl : eventLookup env ⟨.deleted, { n with status := .failed, exitReason := some r }⟩ m = some n := by
    simpa [eventLookup, skipDeletedEvent, hr] using hn
  obtain ⟨n', hn', -, -, hst⟩ := processEvent_jobNode_key hl (by simp)
  refine ⟨n', hn', ?_⟩
  by_cases hs : n.status = .initial ∨ n.status = .pending ∨ n.status = .running
  · rw [if_neg (flowRejected_forcedFailure.not.mpr (not_not.mpr hs))] at hst
    rwa [if_pos hs]
  · rw [if_pos (flowRejected_forcedFailure.mpr hs)] at hst
    rwa [if_neg hs]

/-- The deletions that force a failure with exit reason `r` on each of `l`, in order. -/
def forcedFailures (r : NodeExitReason) (l : List Node) : List NodeEvent :=
  l.map fun x => ⟨.deleted, { x with status := .failed, exitReason := some r }⟩

theorem foldl_forcedFailures (env : ManagerEnv) (hr : isPositiveExit (some r) = true) :
    ∀ (l : List Node) (m : DistributedJobManager), (∀ x ∈ l, m.jobNodes.jobNode x.type x.id = some x) →
      (l.map Node.key).Nodup →
      Framed (· ∈ l.map Node.key) m.jobNodes
        ((forcedFailures r l).foldl (fun m e => processEvent env e m) m).jobNodes ∧
      ∀ x ∈ l, ∃ x', ((forcedFailures r l).foldl (fun m e => processEvent env e m) m).jobNodes.jobNode
          x.type x.id = some x' ∧
        (x'.status, x'.exitReason) = if x.status = .initial ∨ x.status = .pending ∨ x.status = .running
          then (.failed, some r) else (x.status, x.exitReason)
  | [], m, _, _ => ⟨Framed.refl _ _, by simp⟩
  | x :: l, m, hst, hnd => by
    rw [List.map_cons, List.nodup_cons] at hnd
    have hf₁ := Framed.processEvent env ⟨.deleted, { x with status := .failed, exitReason := some r }⟩ m
    have hst' : ∀ y ∈ l, (processEvent env ⟨.deleted, { x with status := .failed, exitReason := some r }⟩
        m).jobNodes.jobNode y.type y.id = some y := fun y hy =>
      hf₁.stored (fun h => hnd.1 ((show y.key = x.key from h) ▸ List.mem_map_of_mem Node.key hy))
        (hst y (.tail _ hy))
    obtain ⟨hf, hout⟩ := foldl_forcedFailures env hr l _ hst' hnd.2
    obtain ⟨x₁, hx₁, hP⟩ := processEvent_forcedFailure env hr (hst x (List.mem_cons_self _ _))
    refine ⟨(hf₁.mono fun k hk => hk ▸ List.mem_cons_self _ _).trans
      (hf.mono fun k hk => List.mem_cons_of_mem _ hk), fun y hy => ?_⟩
    rcases List.mem_cons.mp hy with rfl | hy
    · exact ⟨x₁, hf.stored hnd.1 hx₁, hP⟩
    · exact hout y hy

theorem mem_of_key_mem {s : JobNodes} {l : List Node} (hl : ∀ x ∈ l, s.jobNode x.type x.id = some x)
    (hn : s.jobNode n.type n.id = some n) (hk : n.key ∈ l.map Node.key) : n ∈ l := by
  obtain ⟨y, hy, hyk⟩ := List.mem_map.mp hk
  obtain ⟨ht, hi⟩ := Prod.mk.inj hyk
  have h := hl y hy
  rw [ht, hi, hn] at h
  exact Option.some.inj h ▸ hy

end ForcedFailure

/-- A diagnosis `NodeAction` fails only the node it names, when it had not ended. -/
theorem processNodeAction_fails_node (env : ManagerEnv) (t : NodeType) (i : Nat)
    (m : DistributedJobManager) :
    let m' := processNodeAction env t i m
    OthersKept (t, i) m.jobNodes m'.jobNodes ∧
      ∀ n, m.jobNodes.jobNode t i = some n → ∃ n', m'.jobNodes.jobNode t i = some n' ∧
        (n'.status, n'.exitReason) = if n.status = .initial ∨ n.status = .pending ∨ n.status = .running
          then (.failed, some .diagFail) else (n.status, n.exitReason) := by
  show OthersKept (t, i) m.jobNodes (processNodeAction env t i m).jobNodes ∧ _
  unfold processNodeAction
  split
  · next hn => exact ⟨(Framed.refl _ _).othersKept, fun n h => by simp [hn] at h⟩
  · next n hn =>
    obtain ⟨-, rfl, rfl⟩ := JobNodes.jobNode_some hn
    refine ⟨(Framed.processEvent env
      ⟨.deleted, { n with status := .failed, exitReason := some .diagFail }⟩ m).othersKept, fun n' hn' => ?_⟩
    cases hn.symm.trans hn'
    exact processEvent_forcedFailure env rfl hn

theorem monitorNodeHeartBeat_eq (env : ManagerEnv) (now : Nat) (m : DistributedJobManager) :
    monitorNodeHeartBeat env now m =
      (forcedFailures .noHeartbeat (m.jobNodes.all.filter fun n =>
        n.heartbeatExpired now 600 && n.heartbeatAfterStart)).foldl (fun m e => processEvent env e m)
        (m.emit (getDeadNodeEvent env now 600 m.jobNodes).2) := rfl

/-- The heartbeat scan fails each dead node with `NO_HEARTBEAT` and leaves the others. -/
theorem monitorNodeHeartBeat_fails_dead_nodes (env : ManagerEnv) (now : Nat) (m : DistributedJobManager) :
    let m' := monitorNodeHeartBeat env now m
    ∀ n ∈ m.jobNodes.all,
      if n.heartbeatExpired now 600 && n.heartbeatAfterStart then
        ∃ n', m'.jobNodes.jobNode n.type n.id = some n' ∧ n'.status = .failed ∧
          n'.exitReason = some .noHeartbeat
      else m'.jobNodes.jobNode n.type n.id = some n := by
  intro m' n hn
  have hdead := stored_of_sublist (List.filter_sublist
    (p := fun n => n.heartbeatExpired now 600 && n.heartbeatAfterStart) m.jobNodes.all)
  obtain ⟨hf, hout⟩ := foldl_forcedFailures env (r := .noHeartbeat) rfl _ (m.emit _) hdead.1 hdead.2
  have hn₀ := JobNodes.jobNode_of_mem (JobNodes.mem_all.mp hn)
  rw [show m' = _ from monitorNodeHeartBeat_eq env now m]
  split_ifs with hd
  · obtain ⟨n', hn', hst⟩ := hout n (List.mem_filter.mpr ⟨hn, hd⟩)
    have hrun : n.status = .running := by
      simp only [Node.heartbeatExpired, Bool.and_eq_true, decide_eq_true_eq] at hd
      exact hd.1.1.2
    rw [if_pos (.inr (.inr hrun)), Prod.mk.injEq] at hst
    exact ⟨n', hn', hst⟩
  · exact hf.stored (fun hk => hd (List.mem_filter.mp (mem_of_key_mem hdead.1 hn₀ hk)).2) hn₀

end DistJobManager
