import Mathlib.Data.List.Forall2
import StackEffect.Proofs.Graph.Origin
import StackEffect.Proofs.ValueType

/-!
Types of outputs. An output has the type of its origin. While a body is read its graph only grows:
nodes are added, and an argument whose type is open may take on a concrete one, so that a type once
known stays (`Grows`). A sound graph is one in which every node finds what it asks for (`Sound`).
-/
namespace StackEffect

/-- The types that a node asks for, input by input. -/
def NodeKind.demands : NodeKind → List ValueType
  | literal _ | argument .. => []
  | primitive p => List.replicate p.inputArity p.operandType
  | call callee => callee.signature.inputs

@[simp] theorem NodeKind.length_demands (kind : NodeKind) :
    kind.demands.length = kind.inputArity := by
  cases kind <;> simp [demands, inputArity, Signature.inputArity]

/-- A binary operation of the language works on numbers of one kind. -/
def Primitive.Regular : Primitive → Prop
  | .binary _ type => type = .int32 ∨ type = .float
  | .shuffle _ | .cast _ => True

/-- The words that a body may call. -/
abbrev Vocabulary := Callee → Prop

/-- Literals, arguments and the operations of the language belong to every vocabulary. -/
def Vocabulary.Has (V : Vocabulary) : NodeKind → Prop
  | .literal _ | .argument .. => True
  | .primitive p => p.Regular
  | .call callee => V callee

namespace Graph

theorem outputType_eq_ok {g : Graph} {o : Output} {type : ValueType} :
    g.outputType o = .ok type ↔ g.Produces o ∧ g.producedType? (g.origin o) = some type := by
  unfold outputType Produces
  by_cases h : o.index < g.outputArity o.node
  · cases hp : g.producedType? (g.origin o) <;> simp [h, hp]
  · simp [h]

theorem produces_of_outputType {g : Graph} {o : Output} {type : ValueType}
    (h : g.outputType o = .ok type) : g.Produces o := (outputType_eq_ok.mp h).1

theorem Ordered.outputType_of_repeated {g : Graph} (hg : g.Ordered) {o s : Output}
    (ho : g.Produces o) (h : g.repeated? o = some s) : g.outputType o = g.outputType s := by
  have hs : g.Produces s := hg.repeated_produces h
  unfold Produces at ho hs
  simp only [outputType, hg.origin_of_repeated h, if_pos ho, if_pos hs]

theorem outputType_of_source {g : Graph} {o : Output} {type : ValueType} (ho : g.Produces o)
    (h : g.repeated? o = none) : g.outputType o = .ok type ↔ g.producedType? o = some type := by
  rw [outputType_eq_ok, origin_of_source h, and_iff_right ho]

theorem producedType?_of_node? {g : Graph} {o : Output} {n : Node} (h : g.node? o.node = some n) :
    g.producedType? o = match n.kind with
      | .literal value => some value.type
      | .argument _ declared => some (g.argumentType o.node declared)
      | .primitive p => p.outputType? o.index
      | .call callee => callee.signature.outputs[o.index]? := by
  simp only [producedType?, h, Option.map_some]
  cases n.kind <;> rfl

theorem outputType_of_argument {g : Graph} {id index : Nat} {declared type : ValueType}
    {inputs : List Output} (hn : g.node? id = some ⟨.argument index declared, inputs⟩) :
    g.outputType ⟨id, 0⟩ = .ok type ↔ g.argumentType id declared = type := by
  have ho : g.Produces ⟨id, 0⟩ := produces_of_node? hn Nat.zero_lt_one
  have hr : g.repeated? ⟨id, 0⟩ = none := by rw [repeated?_of_node? hn]; rfl
  rw [outputType_of_source ho hr, producedType?_of_node? hn]
  simp only [Option.some.injEq]

theorem Ordered.exists_outputType {g : Graph} (hg : g.Ordered) {o : Output} (ho : g.Produces o) :
    ∃ type, g.outputType o = .ok type := by
  induction o using hg.output_induction with
  | source o h =>
    obtain ⟨n, hn, hi⟩ := ho.exists_node
    simp only [outputType_of_source ho h, producedType?_of_node? hn]
    cases hk : n.kind with
    | literal value => exact ⟨_, rfl⟩
    | argument index declared => exact ⟨_, rfl⟩
    | primitive p =>
      obtain ⟨hz, type, ht⟩ := hg.resultType_of_source hn hk hi h
      exact ⟨type, by simp [Primitive.outputType?, hz, ht]⟩
    | call callee =>
      simp only [Node.outputArity, hk, NodeKind.outputArity, Signature.outputArity] at hi
      exact ⟨_, List.getElem?_eq_getElem hi⟩
  | shuffle o s h ih =>
    rw [hg.outputType_of_repeated ho h]
    exact ih (hg.repeated_produces h)

/-! ### Growing graphs -/

/-- `later` has the nodes of `g` in their places, and types that were known have stayed. -/
structure Grows (g later : Graph) : Prop where
  node : ∀ {id n}, g.node? id = some n → later.node? id = some n
  type : ∀ {o type}, g.outputType o = .ok type →
    ∃ refined, later.outputType o = .ok refined ∧ type.Refines refined

namespace Grows
variable {g later latest : Graph}

theorem refl (g : Graph) : g.Grows g := ⟨id, fun h => ⟨_, h, .refl _⟩⟩

theorem trans (h : g.Grows later) (h' : later.Grows latest) : g.Grows latest where
  node hn := h'.node (h.node hn)
  type ht := by
    obtain ⟨refined, hl, hr⟩ := h.type ht
    obtain ⟨finest, hf, hr'⟩ := h'.type hl
    exact ⟨finest, hf, hr.trans hr'⟩

theorem produces (h : g.Grows later) {o : Output} (ho : g.Produces o) : later.Produces o := by
  obtain ⟨n, hn, hi⟩ := ho.exists_node
  exact produces_of_node? (h.node hn) hi

end Grows

theorem Grows.exists_append {g later : Graph} (h : g.Grows later) :
    ∃ after, later.nodes.toList = g.nodes.toList ++ after := by
  have hprefix : g.nodes.toList <+: later.nodes.toList := by
    refine List.prefix_iff_getElem?.mpr fun id hid => ?_
    have hn : g.node? id = some g.nodes.toList[id] := by simp [node?] at hid ⊢
    simpa [node?] using h.node hn
  obtain ⟨after, hafter⟩ := hprefix
  exact ⟨after, hafter.symm⟩

/-- Whether an output may stand where a type is asked for. -/
def Accepts (g : Graph) (required : ValueType) (o : Output) : Prop :=
  ∃ actual, g.outputType o = .ok actual ∧ ValueType.compatible required actual = true

theorem Accepts.produces {g : Graph} {required : ValueType} {o : Output}
    (h : g.Accepts required o) : g.Produces o := by
  obtain ⟨actual, ha, -⟩ := h
  exact produces_of_outputType ha

theorem Accepts.grow {g later : Graph} {required : ValueType} {o : Output}
    (h : g.Accepts required o) (hg : g.Grows later) : later.Accepts required o := by
  obtain ⟨actual, ha, hc⟩ := h
  obtain ⟨refined, hl, hr⟩ := hg.type ha
  exact ⟨refined, hl, hr.compatible hc⟩

theorem Accepts.trans {g later : Graph} {required : ValueType} {o o' : Output}
    (h : g.Accepts required o) (h' : ∀ type, g.outputType o = .ok type → later.Accepts type o') :
    later.Accepts required o' := by
  obtain ⟨type, ht, hc⟩ := h
  obtain ⟨actual, ha, hc'⟩ := h' type ht
  exact ⟨actual, ha, ValueType.compatible_trans hc hc'⟩

theorem accepts_all_grow {g later : Graph} {types : List ValueType} {os : List Output}
    (h : List.Forall₂ g.Accepts types os) (hg : g.Grows later) :
    List.Forall₂ later.Accepts types os := h.imp fun _ _ ha => ha.grow hg

/-- A graph in which every node finds inputs of the types that it asks for, and which uses the words
of `V` only. A binding gives a concrete type to an argument that was declared without one. -/
structure Sound (V : Vocabulary) (g : Graph) : Prop where
  ordered : g.Ordered
  typed : ∀ {id n}, g.node? id = some n → List.Forall₂ g.Accepts n.kind.demands n.inputs
  bound : ∀ {id type}, (id, type) ∈ g.bindings → type.isConcrete = true ∧
    ∃ index inputs, g.node? id = some ⟨.argument index .any, inputs⟩
  words : ∀ {id n}, g.node? id = some n → V.Has n.kind

theorem Sound.empty (V : Vocabulary) : Sound V {} := by
  constructor <;> simp [node?, Ordered.empty]

theorem Sound.mono {V W : Vocabulary} {g : Graph} (hg : g.Sound V)
    (h : ∀ kind, V.Has kind → W.Has kind) : g.Sound W :=
  ⟨hg.ordered, hg.typed, hg.bound, fun hn => h _ (hg.words hn)⟩

theorem Sound.lookup_size {V : Vocabulary} {g : Graph} (hg : g.Sound V) :
    g.bindings.lookup g.size = none := by
  refine Option.eq_none_iff_forall_ne_some.mpr fun type h => ?_
  obtain ⟨before, after, hb, -⟩ := List.lookup_eq_some_iff.mp h
  have hmem : (g.size, type) ∈ g.bindings := by simp [hb]
  obtain ⟨-, index, inputs, hn⟩ := hg.bound hmem
  exact Nat.lt_irrefl _ (lt_size_of_node? hn)

theorem Sound.lookup_of_open {V : Vocabulary} {g : Graph} (hg : g.Sound V) {id : NodeId}
    {declared : ValueType} (h : g.argumentType id declared = .any) :
    declared = .any ∧ g.bindings.lookup id = none := by
  unfold argumentType at h
  cases hl : g.bindings.lookup id with
  | none =>
    rw [hl, Option.getD_none] at h
    exact ⟨h, rfl⟩
  | some type =>
    rw [hl, Option.getD_some] at h
    obtain ⟨before, after, hb, -⟩ := List.lookup_eq_some_iff.mp hl
    have hmem : (id, ValueType.any) ∈ g.bindings := by simp [hb, h]
    cases (hg.bound hmem).1

/-! ### Adding a node -/

section Add
variable {g : Graph} {kind : NodeKind} {inputs : List Output}

theorem addPrimitive_eq_ok {p : Primitive} {g' : Graph} :
    g.addPrimitive p inputs = .ok g' ↔
      inputs.length = p.inputArity ∧ g' = g.add (.primitive p) inputs := by
  unfold addPrimitive
  by_cases h : inputs.length = p.inputArity <;> simp [h, eq_comm]

theorem addCall_eq_ok {callee : Callee} {g' : Graph} :
    g.addCall callee inputs = .ok g' ↔
      inputs.length = callee.signature.inputArity ∧ g' = g.add (.call callee) inputs := by
  unfold addCall
  by_cases h : inputs.length = callee.signature.inputArity <;> simp [h, eq_comm]

theorem node?_add_size (g : Graph) (kind : NodeKind) (inputs : List Output) :
    (g.add kind inputs).node? g.size = some ⟨kind, inputs⟩ := by
  rw [node?_add, if_pos rfl]

theorem node?_add_of_some {id : NodeId} {n : Node} (h : g.node? id = some n) :
    (g.add kind inputs).node? id = some n := by
  have hne : id ≠ g.size := Nat.ne_of_lt (lt_size_of_node? h)
  rw [node?_add, if_neg hne, h]

theorem node?_add_eq_some {id : NodeId} {n : Node} :
    (g.add kind inputs).node? id = some n ↔
      id = g.size ∧ n = ⟨kind, inputs⟩ ∨ g.node? id = some n := by
  by_cases h : id = g.size
  · subst h
    have hn : g.node? g.size = none := Array.getElem?_eq_none (Nat.le_refl _)
    rw [node?_add_size, hn]
    simp [eq_comm]
  · simp [node?_add, h]

theorem produces_add {o : Output} (ho : g.Produces o) : (g.add kind inputs).Produces o := by
  obtain ⟨n, hn, hi⟩ := ho.exists_node
  exact produces_of_node? (node?_add_of_some hn) hi

theorem repeated?_add {o : Output} (ho : g.Produces o) :
    (g.add kind inputs).repeated? o = g.repeated? o := by
  obtain ⟨n, hn, -⟩ := ho.exists_node
  rw [repeated?_of_node? hn, repeated?_of_node? (node?_add_of_some hn)]

theorem Ordered.add (hg : g.Ordered) (hl : inputs.length = kind.inputArity)
    (hi : ∀ o ∈ inputs, g.Produces o) : (g.add kind inputs).Ordered := by
  constructor
  · intro id n hn
    rcases node?_add_eq_some.mp hn with ⟨-, rfl⟩ | hn
    · exact hl
    · exact hg.length hn
  · intro id n o hn ho
    rcases node?_add_eq_some.mp hn with ⟨rfl, rfl⟩ | hn
    · exact (hi o ho).lt_size
    · exact hg.earlier hn ho
  · intro id n o hn ho
    rcases node?_add_eq_some.mp hn with ⟨-, rfl⟩ | hn
    · exact produces_add (hi o ho)
    · exact produces_add (hg.produces hn ho)

theorem producedType?_add {o : Output} (ho : g.Produces o) :
    (g.add kind inputs).producedType? o = g.producedType? o := by
  obtain ⟨n, hn, -⟩ := ho.exists_node
  rw [producedType?_of_node? hn, producedType?_of_node? (node?_add_of_some hn)]
  rfl

theorem Ordered.outputType_add (hg : g.Ordered) (hl : inputs.length = kind.inputArity)
    (hi : ∀ o ∈ inputs, g.Produces o) {o : Output} (ho : g.Produces o) {type : ValueType} :
    (g.add kind inputs).outputType o = .ok type ↔ g.outputType o = .ok type := by
  induction o using hg.output_induction with
  | source o h =>
    have h' : (g.add kind inputs).repeated? o = _ := (repeated?_add ho).trans h
    rw [outputType_of_source (produces_add ho) h', outputType_of_source ho h, producedType?_add ho]
  | shuffle o s h ih =>
    have h' : (g.add kind inputs).repeated? o = _ := (repeated?_add ho).trans h
    rw [(hg.add hl hi).outputType_of_repeated (produces_add ho) h', hg.outputType_of_repeated ho h]
    exact ih (hg.repeated_produces h)

theorem Ordered.grows_add (hg : g.Ordered) (hl : inputs.length = kind.inputArity)
    (hi : ∀ o ∈ inputs, g.Produces o) : g.Grows (g.add kind inputs) where
  node hn := node?_add_of_some hn
  type ht := by
    have ht' := (hg.outputType_add hl hi (produces_of_outputType ht)).mpr ht
    exact ⟨_, ht', .refl _⟩

theorem produces_of_accepts_all {types : List ValueType} {os : List Output}
    (h : List.Forall₂ g.Accepts types os) : ∀ o ∈ os, g.Produces o := by
  induction h with
  | nil => simp
  | cons ha _ ih =>
    intro o ho
    rcases List.mem_cons.mp ho with rfl | ho
    · exact ha.produces
    · exact ih o ho

/-- A node may be added when the outputs that it takes are there and have the types it asks for. -/
theorem Sound.add {V : Vocabulary} (hg : g.Sound V) (hk : V.Has kind)
    (hi : List.Forall₂ g.Accepts kind.demands inputs) :
    (g.add kind inputs).Sound V ∧ g.Grows (g.add kind inputs) := by
  have hl : inputs.length = kind.inputArity := by
    rw [← NodeKind.length_demands, hi.length_eq]
  have hp := produces_of_accepts_all hi
  have grows := hg.ordered.grows_add hl hp
  refine ⟨⟨hg.ordered.add hl hp, ?_, ?_, ?_⟩, grows⟩
  · intro id n hn
    rcases node?_add_eq_some.mp hn with ⟨-, rfl⟩ | hn
    · exact accepts_all_grow hi grows
    · exact accepts_all_grow (hg.typed hn) grows
  · intro id type hb
    obtain ⟨hc, index, inputs, hn⟩ := hg.bound hb
    exact ⟨hc, index, inputs, node?_add_of_some hn⟩
  · intro id n hn
    rcases node?_add_eq_some.mp hn with ⟨-, rfl⟩ | hn
    · exact hk
    · exact hg.words hn

end Add

/-! ### Giving an argument a type -/

section Bind
variable {g : Graph} {id : NodeId} {type : ValueType}

theorem isUnbound_iff : g.isUnbound id = true ↔
    (∃ index inputs, g.node? id = some ⟨.argument index .any, inputs⟩) ∧
      g.bindings.lookup id = none := by
  unfold isUnbound
  cases hn : g.node? id with
  | none => simp
  | some n =>
    obtain ⟨kind, inputs⟩ := n
    cases kind with
    | argument index declared => cases declared <;> simp
    | literal value => simp
    | primitive p => simp
    | call callee => simp

theorem argumentType_bind (g : Graph) (id : NodeId) (type : ValueType) (i : NodeId)
    (declared : ValueType) : (g.bind id type).argumentType i declared =
      if i = id then type else g.argumentType i declared := by
  by_cases h : i = id
  · simp [argumentType, Graph.bind, h]
  · have hb : (i == id) = false := beq_eq_false_iff_ne.mpr h
    simp [argumentType, Graph.bind, List.lookup_cons, hb, h]

theorem producedType?_bind (hu : g.isUnbound id = true) (o : Output) :
    (g.bind id type).producedType? o =
      if o.node = id then some type else g.producedType? o := by
  obtain ⟨⟨index, inputs, hn⟩, -⟩ := isUnbound_iff.mp hu
  unfold producedType?
  rw [node?_bind]
  by_cases h : o.node = id
  · simp [h, hn, argumentType_bind]
  · cases hk : (g.node? o.node).map Node.kind with
    | none => simp [h]
    | some kind => cases kind <;> simp [h, argumentType_bind]

theorem Ordered.origin_bind (hg : g.Ordered) (id : NodeId) (type : ValueType) (o : Output) :
    (g.bind id type).origin o = g.origin o := by
  induction o using hg.output_induction with
  | source o h => rw [origin_of_source h, origin_of_source ((repeated?_bind g id type o).trans h)]
  | shuffle o s h ih =>
    rw [hg.origin_of_repeated h, (hg.bind id type).origin_of_repeated
      ((repeated?_bind g id type o).trans h), ih]

/-- The outputs that come from the argument have the type, and all others keep theirs. -/
theorem Ordered.outputType_bind (hg : g.Ordered) (hu : g.isUnbound id = true) {o : Output}
    (ho : g.Produces o) : (g.bind id type).outputType o =
      if (g.origin o).node = id then .ok type else g.outputType o := by
  have ho' : (g.bind id type).Produces o := ho
  have hp : g.producedType? (g.origin o) ≠ none := by
    obtain ⟨t, ht⟩ := hg.exists_outputType ho
    simp [(outputType_eq_ok.mp ht).2]
  obtain ⟨t, ht⟩ := Option.ne_none_iff_exists'.mp hp
  have hto := outputType_eq_ok.mpr ⟨ho, ht⟩
  by_cases h : (g.origin o).node = id
  · rw [if_pos h, outputType_eq_ok, hg.origin_bind, producedType?_bind hu, if_pos h]
    exact ⟨ho', rfl⟩
  · rw [if_neg h, hto, outputType_eq_ok, hg.origin_bind, producedType?_bind hu, if_neg h]
    exact ⟨ho', ht⟩

theorem outputType_of_isUnbound {o : Output} (hu : g.isUnbound (g.origin o).node = true)
    (ho : g.Produces o) : g.outputType o = .ok .any := by
  obtain ⟨⟨index, inputs, hn⟩, hl⟩ := isUnbound_iff.mp hu
  rw [outputType_eq_ok]
  refine ⟨ho, ?_⟩
  rw [producedType?_of_node? hn]
  simp [argumentType, hl]

theorem Ordered.grows_bind (hg : g.Ordered) (hu : g.isUnbound id = true)
    (hc : type.isConcrete = true) : g.Grows (g.bind id type) where
  node hn := hn
  type {o t} ht := by
    have ho := produces_of_outputType ht
    rw [hg.outputType_bind hu ho]
    by_cases h : (g.origin o).node = id
    · have hany := outputType_of_isUnbound (h ▸ hu) ho
      have : t = .any := by simpa [ht] using hany
      exact ⟨type, if_pos h, .inr ⟨this, hc⟩⟩
    · exact ⟨t, by rw [if_neg h, ht], .refl t⟩

theorem Sound.bind {V : Vocabulary} (hg : g.Sound V) (hu : g.isUnbound id = true)
    (hc : type.isConcrete = true) :
    (g.bind id type).Sound V ∧ g.Grows (g.bind id type) := by
  have grows := hg.ordered.grows_bind hu hc
  refine ⟨⟨hg.ordered.bind id type, ?_, ?_, hg.words⟩, grows⟩
  · intro i n hn
    exact accepts_all_grow (hg.typed hn) grows
  · intro i t hb
    rcases List.mem_cons.mp hb with h | hb
    · cases h
      exact ⟨hc, (isUnbound_iff.mp hu).1⟩
    · exact hg.bound hb

end Bind

end Graph
end StackEffect
