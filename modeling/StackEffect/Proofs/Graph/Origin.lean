import StackEffect.Graph

/-!
Ways back through shuffles. In a graph whose nodes take outputs of earlier nodes only, every output
has an origin, reached one shuffle at a time (`Ordered.origin_of_repeated`, `origin_of_source`), and
what is said of origins and passed on by shuffles holds of every output (`Ordered.output_induction`).
-/
namespace StackEffect
namespace Graph

theorem node?_bind (g : Graph) (id : NodeId) (type : ValueType) (i : NodeId) :
    (g.bind id type).node? i = g.node? i := rfl

theorem lt_size_of_node? {g : Graph} {id : NodeId} {n : Node} (h : g.node? id = some n) :
    id < g.size := (Array.getElem?_eq_some_iff.mp h).1

theorem node?_of_toList {g : Graph} {before after : List Node} {n : Node}
    (h : g.nodes.toList = before ++ n :: after) : g.node? before.length = some n := by
  rw [node?, ← Array.getElem?_toList, h, List.getElem?_append_right (Nat.le_refl _), Nat.sub_self]
  rfl

theorem exists_node?_of_mem {g : Graph} {n : Node} (h : n ∈ g.nodes.toList) :
    ∃ id, g.node? id = some n := by
  obtain ⟨id, hid⟩ := List.mem_iff_getElem?.mp h
  exact ⟨id, by simpa [node?] using hid⟩

theorem outputArity_of_node? {g : Graph} {id : NodeId} {n : Node} (h : g.node? id = some n) :
    g.outputArity id = n.outputArity := by
  simp [outputArity, h]

def Produces (g : Graph) (o : Output) : Prop := o.index < g.outputArity o.node

instance (g : Graph) (o : Output) : Decidable (g.Produces o) := inferInstanceAs (Decidable (_ < _))

theorem produces_of_node? {g : Graph} {o : Output} {n : Node} (h : g.node? o.node = some n)
    (hi : o.index < n.outputArity) : g.Produces o := by
  rw [Produces, outputArity_of_node? h]
  exact hi

theorem Produces.exists_node {g : Graph} {o : Output} (h : g.Produces o) :
    ∃ n, g.node? o.node = some n ∧ o.index < n.outputArity := by
  unfold Produces outputArity at h
  cases hn : g.node? o.node with
  | none => simp [hn] at h
  | some n => exact ⟨n, rfl, by simpa [hn] using h⟩

theorem Produces.lt_size {g : Graph} {o : Output} (h : g.Produces o) : o.node < g.size := by
  obtain ⟨n, hn, -⟩ := h.exists_node
  exact lt_size_of_node? hn

/-- Nodes have as many inputs as they take, and take them from nodes before them. -/
structure Ordered (g : Graph) : Prop where
  length : ∀ {id n}, g.node? id = some n → n.inputs.length = n.inputArity
  earlier : ∀ {id n o}, g.node? id = some n → o ∈ n.inputs → o.node < id
  produces : ∀ {id n o}, g.node? id = some n → o ∈ n.inputs → g.Produces o

theorem Ordered.length_of_mem {g : Graph} (hg : g.Ordered) {n : Node} (h : n ∈ g.nodes.toList) :
    n.inputs.length = n.inputArity := by
  obtain ⟨id, hn⟩ := exists_node?_of_mem h
  exact hg.length hn

theorem ordered_iff {g : Graph} : g.Ordered ↔ ∀ id < g.size, ∀ n ∈ g.node? id,
    n.inputs.length = n.inputArity ∧ ∀ o ∈ n.inputs, o.node < id ∧ g.Produces o := by
  constructor
  · intro hg id _ n hn
    exact ⟨hg.length hn, fun o ho => ⟨hg.earlier hn ho, hg.produces hn ho⟩⟩
  · intro h
    exact {
      length := fun hn => (h _ (lt_size_of_node? hn) _ hn).1
      earlier := fun hn ho => ((h _ (lt_size_of_node? hn) _ hn).2 _ ho).1
      produces := fun hn ho => ((h _ (lt_size_of_node? hn) _ hn).2 _ ho).2 }

instance (g : Graph) : Decidable g.Ordered := decidable_of_iff _ ordered_iff.symm

theorem Ordered.empty : Ordered {} := by
  constructor <;> simp [node?]

theorem Ordered.bind {g : Graph} (hg : g.Ordered) (id : NodeId) (type : ValueType) :
    (g.bind id type).Ordered := ⟨hg.length, hg.earlier, hg.produces⟩

/-! ### What a shuffle repeats -/

theorem repeated?_eq_some {g : Graph} {o s : Output} (h : g.repeated? o = some s) :
    ∃ n, g.node? o.node = some n ∧ s ∈ n.inputs := by
  unfold repeated? at h
  obtain ⟨n, hn, h⟩ := Option.bind_eq_some_iff.mp h
  refine ⟨n, hn, ?_⟩
  unfold Node.repeated? at h
  split at h
  · obtain ⟨sources, -, h⟩ := Option.bind_eq_some_iff.mp h
    obtain ⟨i, -, h⟩ := Option.bind_eq_some_iff.mp h
    exact List.mem_of_getElem? h
  · contradiction

theorem repeated?_of_node? {g : Graph} {o : Output} {n : Node} (h : g.node? o.node = some n) :
    g.repeated? o = n.repeated? o.index := by
  simp [repeated?, h]

theorem repeated?_bind (g : Graph) (id : NodeId) (type : ValueType) (o : Output) :
    (g.bind id type).repeated? o = g.repeated? o := rfl

def repeatedPlace? (kind : NodeKind) (index : Nat) : Option Nat :=
  match kind with
  | .primitive p => p.sources?.bind (·[index]?)
  | _ => none

theorem repeated?_eq_bind (n : Node) (index : Nat) :
    n.repeated? index = (repeatedPlace? n.kind index).bind (n.inputs[·]?) := by
  unfold Node.repeated? repeatedPlace?
  cases n.kind with
  | primitive p => exact (Option.bind_assoc ..).symm
  | literal value => rfl
  | argument number declared => rfl
  | call callee => rfl

namespace Ordered
variable {g : Graph} (hg : g.Ordered)
include hg

theorem repeated_lt {o s : Output} (h : g.repeated? o = some s) : s.node < o.node := by
  obtain ⟨n, hn, hs⟩ := repeated?_eq_some h
  exact hg.earlier hn hs

theorem repeated_produces {o s : Output} (h : g.repeated? o = some s) : g.Produces s := by
  obtain ⟨n, hn, hs⟩ := repeated?_eq_some h
  exact hg.produces hn hs

/-- Shuffles lead back to earlier nodes, so that an induction may follow them. -/
theorem output_induction {P : Output → Prop}
    (source : ∀ o, g.repeated? o = none → P o)
    (shuffle : ∀ o s, g.repeated? o = some s → P s → P o) (o : Output) : P o := by
  induction h : o.node using Nat.strongRecOn generalizing o with
  | ind k ih =>
    cases hr : g.repeated? o with
    | none => exact source o hr
    | some s => exact shuffle o s hr (ih s.node (h ▸ hg.repeated_lt hr) s rfl)

theorem originWithin_eq {j k : Nat} {o : Output} (hj : o.node < j) (hk : o.node < k) :
    g.originWithin j o = g.originWithin k o := by
  induction j generalizing k o with
  | zero => exact absurd hj (Nat.not_lt_zero _)
  | succ j ih =>
    cases k with
    | zero => exact absurd hk (Nat.not_lt_zero _)
    | succ k =>
      cases hr : g.repeated? o with
      | none => simp only [originWithin, hr]
      | some s =>
        have hs := hg.repeated_lt hr
        have hsj : s.node < j := Nat.lt_of_lt_of_le hs (Nat.le_of_lt_succ hj)
        have hsk : s.node < k := Nat.lt_of_lt_of_le hs (Nat.le_of_lt_succ hk)
        simp only [originWithin, hr]
        exact ih hsj hsk

theorem origin_of_repeated {o s : Output} (h : g.repeated? o = some s) :
    g.origin o = g.origin s := by
  have hs := hg.repeated_lt h
  obtain ⟨n, hn, -⟩ := repeated?_eq_some h
  have ho := lt_size_of_node? hn
  cases hm : g.size with
  | zero => exact absurd (hm ▸ ho) (Nat.not_lt_zero _)
  | succ m =>
    have hsm : s.node < m :=
      Nat.lt_of_lt_of_le hs (Nat.le_of_lt_succ (Nat.lt_of_lt_of_eq ho hm))
    calc g.origin o = g.originWithin m s := by simp only [origin, hm, originWithin, h]
      _ = g.originWithin g.size s := hg.originWithin_eq hsm (Nat.lt_trans hs ho)

end Ordered

theorem origin_of_source {g : Graph} {o : Output} (h : g.repeated? o = none) :
    g.origin o = o := by
  unfold origin
  cases g.size <;> simp [originWithin, h]

theorem Ordered.resultType_of_source {g : Graph} (hg : g.Ordered) {o : Output} {n : Node}
    {p : Primitive} (hn : g.node? o.node = some n) (hk : n.kind = .primitive p)
    (hi : o.index < n.outputArity) (h : g.repeated? o = none) :
    o.index = 0 ∧ ∃ type, p.resultType? = some type := by
  rw [repeated?_of_node? hn] at h
  have hl := hg.length hn
  simp only [Node.inputArity, Node.outputArity, hk, NodeKind.inputArity,
    NodeKind.outputArity] at hl hi
  cases p with
  | binary op type => exact ⟨by simpa [Primitive.outputArity] using hi, type, rfl⟩
  | cast c => exact ⟨by simpa [Primitive.outputArity] using hi, c.target, rfl⟩
  | shuffle s =>
    have hs := List.getElem?_eq_getElem hi
    have hlt := Shuffle.lt_arity_of_mem_sources (List.mem_of_getElem? hs)
    have hj := List.getElem?_eq_getElem (Nat.lt_of_lt_of_eq hlt hl.symm)
    simp [repeated?_eq_bind, repeatedPlace?, hk, Primitive.sources?, hs, hj] at h

end Graph
end StackEffect
