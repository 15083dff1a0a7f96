import DistJobManager.Node
import Mathlib.Data.List.Nodup

/-! The job context's node store, a dictionary from node type to a dictionary from id to the
live node: a change to a node read from it is a change of the store, at the node's key. -/

namespace DistJobManager

/-- `update_job_node` inside one type: a stored id is replaced in place, a new id appended. -/
def insertNode (l : List Node) (n : Node) : List Node :=
  if l.any (·.id == n.id) then l.map (fun m => if m.id = n.id then n else m) else l ++ [n]

theorem mem_insertNode {l : List Node} {n m : Node} (h : m ∈ insertNode l n) : m = n ∨ m ∈ l := by
  unfold insertNode at h
  split at h
  · obtain ⟨x, hx, rfl⟩ := List.mem_map.mp h
    by_cases hid : x.id = n.id <;> simp [hid, hx]
  · simpa [or_comm] using h

theorem insertNode_ids {l : List Node} {n : Node} (h : (l.map Node.id).Nodup) :
    ((insertNode l n).map Node.id).Nodup := by
  unfold insertNode
  split
  · have hf : (Node.id ∘ fun m => if m.id = n.id then n else m) = Node.id := by
      funext m
      by_cases hm : m.id = n.id <;> simp [hm]
    simpa [List.map_map, hf] using h
  · rename_i ha
    simp only [List.any_eq_true, beq_iff_eq, not_exists, not_and] at ha
    simp only [List.map_append, List.map_cons, List.map_nil]
    exact List.nodup_append.mpr ⟨h, List.nodup_singleton _,
      by simpa using fun m hm h' => ha m hm h'⟩

theorem find?_insertNode (l : List Node) (n : Node) (i : Nat) :
    (insertNode l n).find? (·.id == i) = if n.id = i then some n else l.find? (·.id == i) := by
  unfold insertNode
  split
  · rename_i ha
    have hf : ((· == i) ∘ Node.id ∘ fun m => if m.id = n.id then n else m) = ((·.id == i)) := by
      funext m
      by_cases hm : m.id = n.id <;> simp [hm]
    rw [List.find?_map]
    change Option.map _ (List.find? ((· == i) ∘ Node.id ∘ _) l) = _
    rw [hf]
    split
    · rename_i hi
      subst hi
      obtain ⟨m, hm, hmid⟩ := List.any_eq_true.mp ha
      cases hfind : l.find? (·.id == n.id) with
      | none => exact absurd hmid (List.find?_eq_none.mp hfind m hm)
      | some x =>
        have hx : x.id = n.id := by simpa using List.find?_some hfind
        simp [hx]
    · rename_i hi
      cases hfind : l.find? (·.id == i) with
      | none => rfl
      | some x =>
        have hx : x.id = i := by simpa using List.find?_some hfind
        simp [hx, Ne.symm hi]
  · rename_i ha
    simp only [List.any_eq_true, beq_iff_eq, not_exists, not_and] at ha
    rw [List.find?_append]
    split
    · rename_i hi
      subst hi
      rw [List.find?_eq_none.mpr (fun m hm => by simpa using ha m hm)]
      simp
    · rename_i hi
      simp [hi]

theorem find?_id_of_mem {l : List Node} {m : Node} (hnd : (l.map Node.id).Nodup) (h : m ∈ l) :
    l.find? (·.id == m.id) = some m := by
  induction l with
  | nil => simp at h
  | cons x xs ih =>
    obtain ⟨hx, hnd⟩ := List.nodup_cons.mp hnd
    rcases List.mem_cons.mp h with rfl | h
    · simp
    · have hne : x.id ≠ m.id := fun he => hx (he ▸ List.mem_map_of_mem Node.id h)
      simp [hne, ih hnd h]

theorem insertNode_insertNode (l : List Node) {n n' : Node} (h : n.id = n'.id) :
    insertNode (insertNode l n) n' = insertNode l n' := by
  unfold insertNode
  by_cases ha : l.any (·.id == n.id)
  · have ha' : (l.map fun m => if m.id = n.id then n else m).any (·.id == n'.id) := by
      obtain ⟨m, hm, hmid⟩ := List.any_eq_true.mp ha
      exact List.any_eq_true.mpr ⟨n, List.mem_map.mpr ⟨m, hm, by simp_all⟩, by simp [h]⟩
    rw [if_pos ha, if_pos ha', if_pos (h ▸ ha), List.map_map]
    congr 1
    funext m
    by_cases hm : m.id = n.id
    · simp [hm, h]
    · have hm' : m.id ≠ n'.id := h ▸ hm
      simp [hm, hm']
  · have ha' : (l ++ [n]).any (·.id == n'.id) := by simp [h]
    rw [if_neg ha, if_pos ha', if_neg (h ▸ ha), List.map_append]
    simp only [List.any_eq_true, beq_iff_eq, not_exists, not_and] at ha
    rw [List.map_congr_left (fun m hm => if_neg (h ▸ ha m hm))]
    simp [h]

theorem insertNode_of_mem {l : List Node} {n : Node} (hn : n ∈ l)
    (h : ∀ m ∈ l, m.id = n.id → m = n) : insertNode l n = l := by
  have ha : l.any (·.id == n.id) := List.any_eq_true.mpr ⟨n, hn, by simp⟩
  simp only [insertNode, ha, if_true]
  conv => rhs; rw [← List.map_id l]
  exact List.map_congr_left fun m hm => by by_cases hi : m.id = n.id <;> simp [hi, h m hm]

/-- Modelled from the spec (job_context.py is not in the sources): one node list per type. -/
structure JobNodes where
  byType : NodeType → Option (List Node)
  type_eq : ∀ t l, byType t = some l → ∀ n ∈ l, n.type = t
  id_nodup : ∀ t l, byType t = some l → (l.map Node.id).Nodup

namespace JobNodes

@[ext] theorem ext {s s' : JobNodes} (h : s.byType = s'.byType) : s = s' := by
  cases s
  cases s'
  cases h
  rfl

def nodes (s : JobNodes) (t : NodeType) : List Node := (s.byType t).getD []

/-- `job_node(type, id)`. -/
def jobNode (s : JobNodes) (t : NodeType) (i : Nat) : Option Node :=
  (s.nodes t).find? (·.id == i)

def all (s : JobNodes) : List Node := NodeType.all.flatMap s.nodes

variable {s : JobNodes} {t : NodeType} {i : Nat} {m n : Node}

theorem type_of_mem_nodes (h : m ∈ s.nodes t) : m.type = t := by
  unfold nodes at h
  cases hb : s.byType t with
  | none => simp [hb] at h
  | some l => exact s.type_eq t l hb m (by simpa [hb] using h)

theorem nodes_ids (s : JobNodes) (t : NodeType) : ((s.nodes t).map Node.id).Nodup := by
  unfold nodes
  cases hb : s.byType t with
  | none => simp
  | some l => exact s.id_nodup t l hb

def empty : JobNodes where
  byType _ := none
  type_eq := by simp
  id_nodup := by simp

def addType (s : JobNodes) (t : NodeType) : JobNodes where
  byType := Function.update s.byType t (some (s.nodes t))
  type_eq := by
    intro t' l hl m hm
    by_cases ht : t' = t
    · subst ht
      simp only [Function.update_same, Option.some.injEq] at hl
      exact type_of_mem_nodes (hl ▸ hm)
    · rw [Function.update_noteq ht] at hl
      exact s.type_eq t' l hl m hm
  id_nodup := by
    intro t' l hl
    by_cases ht : t' = t
    · subst ht
      simp only [Function.update_same, Option.some.injEq] at hl
      exact hl ▸ s.nodes_ids t'
    · rw [Function.update_noteq ht] at hl
      exact s.id_nodup t' l hl

@[simp] theorem jobNode_addType (s : JobNodes) (t t' : NodeType) (i : Nat) :
    (s.addType t).jobNode t' i = s.jobNode t' i := by
  by_cases h : t' = t
  · subst h
    simp [jobNode, nodes, addType]
  · simp [jobNode, nodes, addType, Function.update_noteq h]

/-- `update_job_node(node)`: store a whole node under its type and id. -/
def updateJobNode (s : JobNodes) (n : Node) : JobNodes where
  byType := Function.update s.byType n.type (some (insertNode (s.nodes n.type) n))
  type_eq := by
    intro t l hl m hm
    by_cases ht : t = n.type
    · subst ht
      simp only [Function.update_same, Option.some.injEq] at hl
      subst hl
      rcases mem_insertNode hm with rfl | hm
      · rfl
      · exact type_of_mem_nodes hm
    · rw [Function.update_noteq ht] at hl
      exact s.type_eq t l hl m hm
  id_nodup := by
    intro t l hl
    by_cases ht : t = n.type
    · subst ht
      simp only [Function.update_same, Option.some.injEq] at hl
      subst hl
      exact insertNode_ids (s.nodes_ids n.type)
    · rw [Function.update_noteq ht] at hl
      exact s.id_nodup t l hl

theorem byType_updateJobNode (s : JobNodes) (n : Node) :
    (s.updateJobNode n).byType =
      Function.update s.byType n.type (some (insertNode (s.nodes n.type) n)) := rfl

theorem nodes_updateJobNode (s : JobNodes) (n : Node) (t : NodeType) :
    (s.updateJobNode n).nodes t = if t = n.type then insertNode (s.nodes n.type) n else s.nodes t := by
  by_cases ht : t = n.type
  · subst ht
    simp [nodes, updateJobNode]
  · simp [nodes, updateJobNode, Function.update_noteq ht, ht]

/-- A write is seen by the read of its own key and by no other read. -/
theorem jobNode_updateJobNode (s : JobNodes) (n : Node) (t : NodeType) (i : Nat) :
    (s.updateJobNode n).jobNode t i = if n.type = t ∧ n.id = i then some n else s.jobNode t i := by
  unfold jobNode
  rw [nodes_updateJobNode]
  by_cases ht : t = n.type
  · subst ht
    simp [find?_insertNode]
  · simp [ht, Ne.symm ht]

theorem jobNode_some (h : s.jobNode t i = some m) : m ∈ s.nodes t ∧ m.type = t ∧ m.id = i := by
  have hm := List.mem_of_find?_eq_some h
  have hi : m.id = i := by simpa using List.find?_some h
  exact ⟨hm, type_of_mem_nodes hm, hi⟩

theorem jobNode_of_mem (h : m ∈ s.nodes t) : s.jobNode t m.id = some m := by
  exact find?_id_of_mem (s.nodes_ids t) h

theorem jobNode_eq_of_mem (h : m ∈ s.nodes t) (hi : m.id = i) : s.jobNode t i = some m :=
  hi ▸ jobNode_of_mem h

theorem mem_all : m ∈ s.all ↔ m ∈ s.nodes m.type := by
  unfold all
  constructor
  · intro h
    obtain ⟨t, -, ht⟩ := List.mem_flatMap.mp h
    exact type_of_mem_nodes ht ▸ ht
  · exact fun h => List.mem_flatMap.mpr ⟨m.type, NodeType.mem_all _, h⟩

theorem workers_ps_sublist {workers pss : List Node} (hw : s.byType .worker = some workers)
    (hps : s.byType .ps = some pss) : (workers ++ pss).Sublist s.all := by
  simp only [all, NodeType.all, List.flatMap_cons, nodes, hw, hps, Option.getD_some]
  exact (List.sublist_append_left pss _).append_left workers

theorem updateJobNode_updateJobNode (s : JobNodes) {n n' : Node} (ht : n.type = n'.type)
    (hi : n.id = n'.id) : (s.updateJobNode n).updateJobNode n' = s.updateJobNode n' := by
  ext1
  rw [byType_updateJobNode, byType_updateJobNode, byType_updateJobNode, nodes_updateJobNode,
    if_pos ht.symm, ← ht,
    Function.update_idem, insertNode_insertNode _ hi]

theorem updateJobNode_of_jobNode (h : s.jobNode n.type n.id = some n) : s.updateJobNode n = s := by
  have hn := (jobNode_some h).1
  have hins : insertNode (s.nodes n.type) n = s.nodes n.type :=
    insertNode_of_mem hn fun m hm hid => by
      simpa [jobNode_eq_of_mem hm hid] using h
  cases hb : s.byType n.type with
  | none => simp [nodes, hb] at hn
  | some l =>
    have hl : insertNode l n = l := by simpa [nodes, hb] using hins
    ext1
    rw [byType_updateJobNode]
    simp only [nodes, hb, Option.getD_some, hl]
    exact Function.update_eq_self_iff.mpr hb.symm

/-- Writing nodes back one after the other, as the loops of the manager do. -/
def updateJobNodes (s : JobNodes) (l : List Node) : JobNodes := l.foldl updateJobNode s

theorem jobNode_updateJobNodes (s : JobNodes) (l : List Node) (t : NodeType) (i : Nat) :
    (s.updateJobNodes l).jobNode t i =
      (l.reverse.find? fun n => n.type == t && n.id == i).or (s.jobNode t i) := by
  induction l generalizing s with
  | nil => simp [updateJobNodes]
  | cons x xs ih =>
    simp only [updateJobNodes, List.foldl_cons] at ih ⊢
    rw [ih, jobNode_updateJobNode, List.reverse_cons, List.find?_append, Option.or_assoc]
    by_cases hx : x.type = t ∧ x.id = i <;> simp [hx]

theorem jobNode_updateJobNodes_map (s : JobNodes) (l : List Node) (f : Node → Node)
    (hf : ∀ m, (f m).type = m.type ∧ (f m).id = m.id) (hl : ∀ m ∈ l, m ∈ s.nodes m.type)
    (t : NodeType) (i : Nat) :
    (s.updateJobNodes (l.map f)).jobNode t i =
      (s.jobNode t i).map fun m => if m ∈ l then f m else m := by
  have hp : ((fun n => n.type == t && n.id == i) ∘ f) = fun n => n.type == t && n.id == i := by
    funext m
    simp [hf m]
  have hkey : ∀ x ∈ l, x.type = t → x.id = i → s.jobNode t i = some x := fun x hx ht hi =>
    ht ▸ jobNode_eq_of_mem (hl x hx) hi
  rw [jobNode_updateJobNodes, ← List.map_reverse, List.find?_map, hp]
  cases hfind : l.reverse.find? fun n => n.type == t && n.id == i with
  | none =>
    have hno : ∀ x ∈ l, ¬ (x.type = t ∧ x.id = i) := fun x hx hk => by
      simpa [hk.1, hk.2] using List.find?_eq_none.mp hfind x (List.mem_reverse.mpr hx)
    cases hs : s.jobNode t i with
    | none => rfl
    | some m =>
      have hm := jobNode_some hs
      have hml : m ∉ l := fun hml => hno m hml ⟨hm.2.1, hm.2.2⟩
      simp [hml]
  | some x =>
    have hx := List.mem_reverse.mp (List.mem_of_find?_eq_some hfind)
    have hk : x.type = t ∧ x.id = i := by simpa using List.find?_some hfind
    simp [hkey x hx hk.1 hk.2, hx]

theorem stored_nodes (s : JobNodes) (t : NodeType) :
    (∀ n ∈ s.nodes t, s.jobNode n.type n.id = some n) ∧ ((s.nodes t).map Node.key).Nodup :=
  ⟨fun n hn => type_of_mem_nodes hn ▸ jobNode_of_mem hn,
    List.Nodup.of_map Prod.snd (by
      simpa [List.map_map, Function.comp_def, Node.key] using s.nodes_ids t)⟩

theorem keys_nodup (s : JobNodes) : (s.all.map Node.key).Nodup := by
  rw [all, List.map_flatMap, List.nodup_flatMap]
  refine ⟨fun t _ => (s.stored_nodes t).2, NodeType.all_nodup.imp fun {t t'} hne => ?_⟩
  · simp only [Function.onFun, List.disjoint_left, List.mem_map]
    rintro _ ⟨n, hn, rfl⟩ ⟨n', hn', he⟩
    have := congrArg Prod.fst he
    simp only [Node.key, type_of_mem_nodes hn, type_of_mem_nodes hn'] at this
    exact hne this.symm

def Every (P : Node → Prop) (s : JobNodes) : Prop :=
  ∀ t i n, s.jobNode t i = some n → P n

theorem Every.updateJobNode {P : Node → Prop} (hs : s.Every P) (hn : P n) :
    (s.updateJobNode n).Every P := by
  intro t i x hx
  rw [jobNode_updateJobNode] at hx
  split_ifs at hx
  · cases hx
    exact hn
  · exact hs t i x hx

theorem Every.updateJobNodes {P : Node → Prop} :
    ∀ {s : JobNodes} {l : List Node}, s.Every P → (∀ n ∈ l, P n) → (s.updateJobNodes l).Every P
  | _, [], hs, _ => hs
  | _, _ :: l, hs, hl =>
    Every.updateJobNodes (l := l) (hs.updateJobNode (hl _ (.head _))) fun n hn => hl n (.tail _ hn)

/-- Every key stored in `s` is stored in `s'`. -/
def KeysIn (s s' : JobNodes) : Prop :=
  ∀ t i, (s.jobNode t i).isSome → (s'.jobNode t i).isSome

theorem KeysIn.refl (s : JobNodes) : s.KeysIn s := fun _ _ h => h

theorem KeysIn.trans {s' s'' : JobNodes} (h : s.KeysIn s') (h' : s'.KeysIn s'') : s.KeysIn s'' :=
  fun t i hs => h' t i (h t i hs)

theorem KeysIn.updateJobNode (n : Node) : s.KeysIn (s.updateJobNode n) := by
  intro t i h
  rw [jobNode_updateJobNode]
  split_ifs
  · rfl
  · exact h

theorem KeysIn.updateJobNodes : ∀ {s : JobNodes} (l : List Node), s.KeysIn (s.updateJobNodes l)
  | s, [] => KeysIn.refl s
  | s, n :: l => (KeysIn.updateJobNode n).trans (KeysIn.updateJobNodes (s := s.updateJobNode n) l)

end JobNodes

end DistJobManager
