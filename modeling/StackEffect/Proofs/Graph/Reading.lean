import Mathlib.Logic.Relation
import StackEffect.Proofs.Graph.Typing

/-!
The plain reading of a graph: an output of a shuffle has the type of the operand that it repeats, and
any other node makes its outputs with types of their own (`Graph.HasType`). In a graph whose nodes
take outputs of earlier nodes, the way back through shuffles ends at the origin, and the type that is
looked up there is the one of the plain reading (`origin_agrees`).
-/
namespace StackEffect.Graph

/-- `o` is an output of a shuffle, and `s` the operand that the shuffle names for it. -/
inductive Repeats (g : Graph) : Output → Output → Prop
  | shuffle {id index place : Nat} {z : Shuffle} {inputs : List Output} {s : Output} :
      g.node? id = some ⟨.primitive (.shuffle z), inputs⟩ → z.sources[index]? = some place →
      inputs[place]? = some s → Repeats g ⟨id, index⟩ s

/-- The output is made by a node that is no shuffle, with this type. A type that a later use gave to
an argument stands before the declared one. -/
inductive Makes (g : Graph) : Output → ValueType → Prop
  | literal {id : NodeId} {value : Value} {inputs : List Output} :
      g.node? id = some ⟨.literal value, inputs⟩ → Makes g ⟨id, 0⟩ value.type
  | declared {id : NodeId} {index : Nat} {type : ValueType} {inputs : List Output} :
      g.node? id = some ⟨.argument index type, inputs⟩ → g.bindings.lookup id = none →
      Makes g ⟨id, 0⟩ type
  | bound {id : NodeId} {index : Nat} {declared type : ValueType} {inputs : List Output} :
      g.node? id = some ⟨.argument index declared, inputs⟩ → g.bindings.lookup id = some type →
      Makes g ⟨id, 0⟩ type
  | binary {id : NodeId} {op : BinaryOp} {type : ValueType} {inputs : List Output} :
      g.node? id = some ⟨.primitive (.binary op type), inputs⟩ → Makes g ⟨id, 0⟩ type
  | cast {id : NodeId} {c : Cast} {inputs : List Output} :
      g.node? id = some ⟨.primitive (.cast c), inputs⟩ → Makes g ⟨id, 0⟩ c.target
  | call {id : NodeId} {index : Nat} {callee : Callee} {type : ValueType} {inputs : List Output} :
      g.node? id = some ⟨.call callee, inputs⟩ → callee.signature.outputs[index]? = some type →
      Makes g ⟨id, index⟩ type

/-- The type of an output, read through one shuffle after the other. -/
inductive HasType (g : Graph) : Output → ValueType → Prop
  | made {o : Output} {type : ValueType} : g.Makes o type → HasType g o type
  | repeated {o s : Output} {type : ValueType} : g.Repeats o s → HasType g s type →
      HasType g o type

variable {g : Graph} {o s : Output} {type : ValueType}

theorem repeats_iff : g.Repeats o s ↔ g.repeated? o = some s := by
  constructor
  · rintro ⟨hn, hplace, hs⟩
    rw [repeated?_of_node? hn, repeated?_eq_bind]
    simp [repeatedPlace?, Primitive.sources?, hplace, hs]
  · intro h
    obtain ⟨id, index⟩ := o
    obtain ⟨⟨kind, inputs⟩, hn, -⟩ := repeated?_eq_some h
    rw [repeated?_of_node? hn, repeated?_eq_bind] at h
    obtain ⟨place, hplace, hs⟩ := Option.bind_eq_some_iff.mp h
    cases kind with
    | literal value => cases hplace
    | argument number declared => cases hplace
    | call callee => cases hplace
    | primitive p =>
      cases p with
      | binary op type => cases hplace
      | cast c => cases hplace
      | shuffle z => exact .shuffle hn hplace hs

theorem makes_iff : g.Makes o type ↔
    g.Produces o ∧ g.repeated? o = none ∧ g.producedType? o = some type := by
  constructor
  · intro h
    cases h with
    | @literal id _ _ hn =>
      exact ⟨produces_of_node? hn Nat.zero_lt_one, repeated?_of_node? (o := ⟨id, 0⟩) hn,
        producedType?_of_node? (o := ⟨id, 0⟩) hn⟩
    | @declared id _ _ _ hn hl =>
      refine ⟨produces_of_node? hn Nat.zero_lt_one, repeated?_of_node? (o := ⟨id, 0⟩) hn, ?_⟩
      simp [producedType?_of_node? (o := ⟨id, 0⟩) hn, argumentType, hl]
    | @bound id _ _ _ _ hn hl =>
      refine ⟨produces_of_node? hn Nat.zero_lt_one, repeated?_of_node? (o := ⟨id, 0⟩) hn, ?_⟩
      simp [producedType?_of_node? (o := ⟨id, 0⟩) hn, argumentType, hl]
    | @binary id _ _ _ hn =>
      exact ⟨produces_of_node? hn Nat.zero_lt_one, repeated?_of_node? (o := ⟨id, 0⟩) hn,
        producedType?_of_node? (o := ⟨id, 0⟩) hn⟩
    | @cast id _ _ hn =>
      exact ⟨produces_of_node? hn Nat.zero_lt_one, repeated?_of_node? (o := ⟨id, 0⟩) hn,
        producedType?_of_node? (o := ⟨id, 0⟩) hn⟩
    | @call id index _ _ _ hn ht =>
      exact ⟨produces_of_node? hn (List.getElem?_eq_some_iff.mp ht).1,
        repeated?_of_node? (o := ⟨id, index⟩) hn,
        (producedType?_of_node? (o := ⟨id, index⟩) hn).trans ht⟩
  · rintro ⟨ho, -, ht⟩
    obtain ⟨id, index⟩ := o
    obtain ⟨⟨kind, inputs⟩, hn, hi⟩ := ho.exists_node
    rw [producedType?_of_node? hn] at ht
    cases kind with
    | literal value =>
      obtain rfl : index = 0 := Nat.lt_one_iff.mp hi
      exact Option.some.inj ht ▸ .literal hn
    | argument number declared =>
      obtain rfl : index = 0 := Nat.lt_one_iff.mp hi
      obtain rfl : g.argumentType id declared = type := Option.some.inj ht
      unfold argumentType
      cases hl : g.bindings.lookup id with
      | none => exact .declared hn hl
      | some type => exact .bound hn hl
    | call callee => exact .call hn ht
    | primitive p =>
      obtain ⟨rfl, hp⟩ := Option.ite_none_right_eq_some.mp ht
      cases p with
      | shuffle z => cases hp
      | binary op type => exact Option.some.inj hp ▸ .binary hn
      | cast c => exact Option.some.inj hp ▸ .cast hn

theorem outputType_of_makes (h : g.Makes o type) : g.outputType o = .ok type := by
  obtain ⟨ho, hr, ht⟩ := makes_iff.mp h
  exact (outputType_of_source ho hr).mpr ht

namespace Ordered
variable (hg : g.Ordered)
include hg

theorem exists_makes (ho : g.Produces o) (h : g.repeated? o = none) : ∃ type, g.Makes o type := by
  obtain ⟨type, ht⟩ := hg.exists_outputType ho
  exact ⟨type, makes_iff.mpr ⟨ho, h, (outputType_of_source ho h).mp ht⟩⟩

theorem exists_operand {z : Shuffle} {inputs : List Output}
    (hn : g.node? o.node = some ⟨.primitive (.shuffle z), inputs⟩)
    (ho : g.Produces o) :
    ∃ place s, z.sources[o.index]? = some place ∧ inputs[place]? = some s := by
  obtain ⟨n, hn', hi⟩ := ho.exists_node
  cases hn.symm.trans hn'
  have hplace := List.getElem?_eq_getElem hi
  have hlt := Shuffle.lt_arity_of_mem_sources (List.mem_of_getElem? hplace)
  have hs := List.getElem?_eq_getElem (Nat.lt_of_lt_of_eq hlt (hg.length hn).symm)
  exact ⟨_, _, hplace, hs⟩

/-- The way back through shuffles comes to an end at the origin. -/
theorem leads_to_origin (o : Output) :
    Relation.ReflTransGen g.Repeats o (g.origin o) ∧ g.repeated? (g.origin o) = none := by
  induction o using hg.output_induction with
  | source o h =>
    rw [origin_of_source h]
    exact ⟨.refl, h⟩
  | shuffle o s h ih =>
    rw [hg.origin_of_repeated h]
    exact ⟨.head (repeats_iff.mpr h) ih.1, ih.2⟩

theorem produces_origin (ho : g.Produces o) : g.Produces (g.origin o) := by
  induction o using hg.output_induction with
  | source o h => rwa [origin_of_source h]
  | shuffle o s h ih =>
    rw [hg.origin_of_repeated h]
    exact ih (hg.repeated_produces h)

theorem outputType_origin (ho : g.Produces o) : g.outputType (g.origin o) = g.outputType o := by
  induction o using hg.output_induction with
  | source o h => rw [origin_of_source h]
  | shuffle o s h ih =>
    rw [hg.origin_of_repeated h, hg.outputType_of_repeated ho h]
    exact ih (hg.repeated_produces h)

/-- The look-up at the origin finds the type that is read one shuffle at a time. -/
theorem hasType_iff (ho : g.Produces o) : g.HasType o type ↔ g.outputType o = .ok type := by
  constructor
  · intro h
    induction h with
    | made h => exact outputType_of_makes h
    | repeated h _ ih =>
      rw [hg.outputType_of_repeated ho (repeats_iff.mp h)]
      exact ih (hg.repeated_produces (repeats_iff.mp h))
  · intro ht
    induction o using hg.output_induction with
    | source o h =>
      obtain ⟨made, hm⟩ := hg.exists_makes ho h
      cases ht.symm.trans (outputType_of_makes hm)
      exact .made hm
    | shuffle o s h ih =>
      rw [hg.outputType_of_repeated ho h] at ht
      exact .repeated (repeats_iff.mpr h) (ih (hg.repeated_produces h) ht)

end Ordered

/-- In a graph whose nodes take outputs of earlier nodes, the way back through shuffles ends for every
output. It ends at an output that is made by a literal, an argument, an operation, a cast or a call and
is its own origin; the output has a type, which is that of its origin and, where a shuffle repeats an
operand, that of the operand; and this is the type that is read one shuffle at a time. -/
theorem origin_agrees (hg : g.Ordered) (ho : g.Produces o) :
    Relation.ReflTransGen g.Repeats o (g.origin o) ∧ (∀ s, ¬ g.Repeats (g.origin o) s) ∧
    g.Produces (g.origin o) ∧ g.origin (g.origin o) = g.origin o ∧
    (∃ type, g.Makes (g.origin o) type ∧ g.outputType (g.origin o) = .ok type ∧
      g.outputType o = .ok type) ∧
    (∀ z inputs, g.node? o.node = some ⟨.primitive (.shuffle z), inputs⟩ →
      ∃ place s, z.sources[o.index]? = some place ∧ inputs[place]? = some s ∧
        g.outputType o = g.outputType s) ∧
    ∀ type, g.outputType o = .ok type ↔ g.HasType o type := by
  obtain ⟨hleads, hsource⟩ := hg.leads_to_origin o
  have hproduces := hg.produces_origin ho
  obtain ⟨made, hmakes⟩ := hg.exists_makes hproduces hsource
  have htype := outputType_of_makes hmakes
  refine ⟨hleads, fun s hs => ?_, hproduces, origin_of_source hsource,
    ⟨made, hmakes, htype, (hg.outputType_origin ho).symm.trans htype⟩, fun z inputs hn => ?_,
    fun type => (hg.hasType_iff ho).symm⟩
  · cases hsource.symm.trans (repeats_iff.mp hs)
  · obtain ⟨place, s, hplace, hs⟩ := hg.exists_operand hn ho
    have hrepeats : g.Repeats o s := .shuffle hn hplace hs
    exact ⟨place, s, hplace, hs, hg.outputType_of_repeated ho (repeats_iff.mp hrepeats)⟩

/-- Two arguments, the second of which a later use has given a type, moved by `over` and then twice
by `rot`. -/
def rotated : Graph where
  nodes := #[
    ⟨.argument 0 .any, []⟩,
    ⟨.argument 1 .any, []⟩,
    ⟨.primitive (.shuffle .copyOver), [⟨1, 0⟩, ⟨0, 0⟩]⟩,
    ⟨.primitive (.shuffle .rot), [⟨2, 0⟩, ⟨2, 1⟩, ⟨2, 2⟩]⟩,
    ⟨.primitive (.shuffle .rot), [⟨3, 0⟩, ⟨3, 1⟩, ⟨3, 2⟩]⟩]
  bindings := [(1, .string)]

/-- The output in the middle repeats the second argument, from where it has its type. -/
theorem origin_agrees_rotated : rotated.Produces ⟨4, 1⟩ ∧ rotated.origin ⟨4, 1⟩ = ⟨1, 0⟩ ∧
    rotated.outputType ⟨4, 1⟩ = .ok .string ∧ rotated.HasType ⟨4, 1⟩ .string := by
  have hg : rotated.Ordered := by decide +kernel
  have ho : rotated.Produces ⟨4, 1⟩ := by decide +kernel
  have htype : rotated.outputType ⟨4, 1⟩ = .ok .string := by decide +kernel
  obtain ⟨-, -, -, -, -, -, hread⟩ := origin_agrees hg ho
  exact ⟨ho, by decide +kernel, htype, (hread .string).mp htype⟩

end StackEffect.Graph
