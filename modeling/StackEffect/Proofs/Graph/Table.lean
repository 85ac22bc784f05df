import StackEffect.Proofs.Graph.Origin
import StackEffect.Proofs.Pointwise

/-! What is known of the outputs of nodes: a list for each node, one item for each output. -/
namespace StackEffect

abbrev Table (α : Type) := Array (List α)

namespace Table
variable {α : Type} {v : Table α} {o : Output} {items : List α} {x : α}

def value? (v : Table α) (o : Output) : Option α := (v[o.node]?).bind (·[o.index]?)

theorem lt_size_of_value? (h : v.value? o = some x) : o.node < v.size := by
  obtain ⟨items, hv, -⟩ := Option.bind_eq_some_iff.mp h
  exact (Array.getElem?_eq_some_iff.mp hv).1

def add (v : Table α) (items : List α) : Table α := v.push items

@[simp] theorem size_add (v : Table α) (items : List α) : (v.add items).size = v.size + 1 :=
  Array.size_push ..

theorem getElem?_add (v : Table α) (items : List α) (id : NodeId) :
    (v.add items)[id]? = if id = v.size then some items else v[id]? := Array.getElem?_push

theorem value?_add_of_lt (items : List α) (h : o.node < v.size) :
    (v.add items).value? o = v.value? o := by
  rw [value?, getElem?_add, if_neg (Nat.ne_of_lt h), value?]

theorem value?_add_of_some (items : List α) (h : v.value? o = some x) :
    (v.add items).value? o = some x := by
  rw [value?_add_of_lt items (lt_size_of_value? h), h]

theorem value?_add_size (v : Table α) (items : List α) (index : Nat) :
    (v.add items).value? ⟨v.size, index⟩ = items[index]? := by
  rw [value?, getElem?_add, if_pos rfl, Option.bind_some]

theorem value?_add_eq_some : (v.add items).value? o = some x ↔
    v.value? o = some x ∨ ∃ index, o = ⟨v.size, index⟩ ∧ items[index]? = some x := by
  constructor
  · intro h
    have hlt := lt_size_of_value? h
    rw [size_add] at hlt
    rcases Nat.lt_succ_iff_lt_or_eq.mp hlt with hold | hnew
    · exact .inl (value?_add_of_lt items hold ▸ h)
    · obtain ⟨id, index⟩ := o
      obtain rfl : id = v.size := hnew
      exact .inr ⟨index, rfl, value?_add_size v items index ▸ h⟩
  · rintro (h | ⟨index, rfl, h⟩)
    · exact value?_add_of_some items h
    · rw [value?_add_size, h]

/-- The items of several outputs. -/
def Reads (v : Table α) (os : List Output) (items : List α) : Prop :=
  List.Forall₂ (fun o x => v.value? o = some x) os items

theorem Reads.filterMap_eq {os : List Output} (h : v.Reads os items) :
    os.filterMap v.value? = items := by
  induction h with
  | nil => rfl
  | cons hx _ ih => rw [List.filterMap_cons_some hx, ih]

theorem Reads.add {os : List Output} (h : v.Reads os items) (more : List α) :
    (v.add more).Reads os items := h.imp fun _ _ hx => value?_add_of_some more hx

/-- Each node of the table has as many items as outputs. -/
def Filled (g : Graph) (v : Table α) : Prop :=
  ∀ (id : NodeId) items, v[id]? = some items → items.length = g.outputArity id

theorem filled_empty (g : Graph) : Filled g (#[] : Table α) := by
  simp [Filled]

theorem Filled.exists_value {g : Graph} (hv : v.Filled g) (ho : g.Produces o)
    (hlt : o.node < v.size) : ∃ x, v.value? o = some x := by
  have hs := Array.getElem?_eq_getElem hlt
  have hi : o.index < v[o.node].length := by
    rw [hv _ _ hs]
    exact ho
  exact ⟨_, by rw [value?, hs, Option.bind_some, List.getElem?_eq_getElem hi]⟩

theorem Filled.reads {g : Graph} (hv : v.Filled g) {os : List Output}
    (h : ∀ o ∈ os, g.Produces o ∧ o.node < v.size) : v.Reads os (os.filterMap v.value?) :=
  Pointwise.filterMap fun o ho => hv.exists_value (h o ho).1 (h o ho).2

theorem Filled.reads_inputs {g : Graph} (hv : v.Filled g) (hg : g.Ordered) {n : Node}
    (hn : g.node? v.size = some n) : v.Reads n.inputs (n.inputs.filterMap v.value?) :=
  hv.reads fun _ ho => ⟨hg.produces hn ho, hg.earlier hn ho⟩

theorem Filled.add {g : Graph} (hv : v.Filled g) {n : Node} (hn : g.node? v.size = some n)
    (hl : items.length = n.outputArity) : (v.add items).Filled g := by
  intro id items' h
  rw [getElem?_add] at h
  by_cases hid : id = v.size
  · rw [if_pos hid] at h
    cases h
    rw [hid, Graph.outputArity_of_node? hn, hl]
  · rw [if_neg hid] at h
    exact hv id items' h

end Table
end StackEffect
