import StackEffect.Proofs.Flow.Composition
import StackEffect.Proofs.Graph.Typing

/-!
The sources of a graph. Each output comes from an argument or from the node that makes it
(`Graph.source`), and its type is the type of its source (`Sound.outputType_eq`). What a node passes
on hangs on its inputs only (`Ordered.source_of_node?`), so that sources stay what they are while the
graph grows (`Ordered.source_eq`).
-/
namespace StackEffect

namespace NodeKind

/-- Where output `index` of a node comes from, if the node does not repeat one of its inputs. -/
def origin (index : Nat) : NodeKind → Source
  | argument number _ => .taken number
  | literal value => .made value.type
  | primitive p => .made ((p.outputType? index).getD .any)
  | call callee => .made (callee.signature.outputs[index]?.getD .any)

/-- Where output `index` of a node comes from, given where its inputs come from. -/
def source (inputs : List Source) (index : Nat) (kind : NodeKind) : Source :=
  match Graph.repeatedPlace? kind index with
  | some place => inputs[place]?.getD (.made .any)
  | none => kind.origin index

/-- Where the outputs of a node come from, the last one first. -/
def leaves (inputs : List Source) (kind : NodeKind) : List Source :=
  ((List.range kind.outputArity).map (kind.source inputs ·)).reverse

variable {kind : NodeKind} {index place : Nat}

theorem exists_shuffle_of_repeatedPlace? (h : Graph.repeatedPlace? kind index = some place) :
    ∃ s, kind = .primitive (.shuffle s) := by
  cases kind with
  | primitive p =>
    cases p with
    | shuffle s => exact ⟨s, rfl⟩
    | binary op type => cases h
    | cast c => cases h
  | literal value => cases h
  | argument number type => cases h
  | call callee => cases h

theorem origin_via (hk : ∀ number type, kind ≠ .argument number type) (sources : List Source)
    (index : Nat) : (kind.origin index).via sources = kind.origin index := by
  cases kind with
  | argument number type => exact absurd rfl (hk number type)
  | literal value => rfl
  | primitive p => rfl
  | call callee => rfl

theorem source_via (hk : ∀ number type, kind ≠ .argument number type)
    (sources inputs : List Source) (index : Nat) :
    (kind.source inputs index).via sources = kind.source (inputs.map (·.via sources)) index := by
  unfold source
  cases Graph.repeatedPlace? kind index with
  | none => exact origin_via hk sources index
  | some place =>
    cases h : inputs[place]? with
    | none => simp [h, Source.via]
    | some s => simp [h]

theorem leaves_via (hk : ∀ number type, kind ≠ .argument number type)
    (sources inputs : List Source) :
    (kind.leaves inputs).map (·.via sources) = kind.leaves (inputs.map (·.via sources)) := by
  simp [leaves, source_via hk]

end NodeKind

namespace Graph

def source (g : Graph) (o : Output) : Source :=
  match g.node? (g.origin o).node with
  | some n => n.kind.origin (g.origin o).index
  | none => .made .any

variable {g later : Graph} {o s : Output} {n : Node}

theorem source_of_origin (h : g.repeated? o = none) (hn : g.node? o.node = some n) :
    g.source o = n.kind.origin o.index := by
  simp only [source, origin_of_source h, hn]

theorem Ordered.source_of_repeated (hg : g.Ordered) (h : g.repeated? o = some s) :
    g.source o = g.source s := by
  rw [source, source, hg.origin_of_repeated h]

/-- An output of a node comes from where the input comes from that it repeats, or else from the
node. -/
theorem Ordered.source_of_node? (hg : g.Ordered) (hn : g.node? o.node = some n) :
    g.source o = n.kind.source (n.inputs.map g.source) o.index := by
  have hr := repeated?_of_node? hn
  rw [repeated?_eq_bind] at hr
  unfold NodeKind.source
  cases hplace : repeatedPlace? n.kind o.index with
  | none =>
    rw [hplace, Option.bind_none] at hr
    exact source_of_origin hr hn
  | some place =>
    rw [hplace, Option.bind_some] at hr
    cases hs : n.inputs[place]? with
    | some s =>
      rw [hs] at hr
      simp [hg.source_of_repeated hr, hs]
    | none =>
      rw [hs] at hr
      obtain ⟨shuffle, hk⟩ := NodeKind.exists_shuffle_of_repeatedPlace? hplace
      simp [source_of_origin hr hn, hk, hs, NodeKind.origin, Primitive.outputType?,
        Primitive.resultType?]

/-- The nodes alone tell where an output comes from. -/
theorem Ordered.source_eq (hg : g.Ordered) (hl : later.Ordered)
    (hnodes : ∀ {id n}, g.node? id = some n → later.node? id = some n) (ho : g.Produces o) :
    later.source o = g.source o := by
  induction o using hg.output_induction with
  | source o h =>
    obtain ⟨n, hn, -⟩ := ho.exists_node
    have h' : later.repeated? o = none := by
      rw [repeated?_of_node? (hnodes hn), ← repeated?_of_node? hn, h]
    rw [source_of_origin h hn, source_of_origin h' (hnodes hn)]
  | shuffle o s h ih =>
    obtain ⟨n, hn, -⟩ := ho.exists_node
    have h' : later.repeated? o = some s := by
      rw [repeated?_of_node? (hnodes hn), ← repeated?_of_node? hn, h]
    rw [hg.source_of_repeated h, hl.source_of_repeated h']
    exact ih (hg.repeated_produces h)

/-! ### Types -/

/-- The types of all arguments, by number. -/
def Takes (g : Graph) (types : List ValueType) : Prop :=
  ∀ id index declared inputs, g.node? id = some ⟨.argument index declared, inputs⟩ →
    types[index]? = some (g.argumentType id declared)

theorem Takes.outputType_eq {types : List ValueType} (h : g.Takes types) (hg : g.Ordered)
    (ho : g.Produces o) : g.outputType o = .ok ((g.source o).type types) := by
  induction o using hg.output_induction with
  | shuffle o s hr ih =>
    rw [hg.outputType_of_repeated ho hr, hg.source_of_repeated hr]
    exact ih (hg.repeated_produces hr)
  | source o hr =>
    obtain ⟨⟨kind, inputs⟩, hn, hi⟩ := ho.exists_node
    rw [outputType_of_source ho hr, producedType?_of_node? hn, source_of_origin hr hn]
    cases kind with
    | argument index declared => simp [NodeKind.origin, Source.type, h _ _ _ _ hn]
    | literal value => rfl
    | primitive p =>
      obtain ⟨hz, type, ht⟩ := hg.resultType_of_source hn rfl hi hr
      simp [NodeKind.origin, Source.type, Primitive.outputType?, hz, ht]
    | call callee =>
      have hlt : o.index < callee.signature.outputs.length := hi
      simp [NodeKind.origin, Source.type, hlt]

theorem Takes.isUnbound_iff {V : Vocabulary} {types : List ValueType} (h : g.Takes types)
    (hg : g.Sound V) : g.isUnbound (g.origin o).node = true ↔
      ∃ index, g.source o = .taken index ∧ types[index]? = some .any := by
  rw [Graph.isUnbound_iff]
  constructor
  · rintro ⟨⟨index, inputs, hn⟩, hl⟩
    refine ⟨index, by simp only [source, hn, NodeKind.origin], ?_⟩
    rw [h _ _ _ _ hn, argumentType, hl, Option.getD_none]
  · rintro ⟨index, hs, ht⟩
    unfold source at hs
    cases hn : g.node? (g.origin o).node with
    | none => simp [hn] at hs
    | some n =>
      obtain ⟨kind, inputs⟩ := n
      cases kind with
      | literal value => simp [hn, NodeKind.origin] at hs
      | primitive p => simp [hn, NodeKind.origin] at hs
      | call callee => simp [hn, NodeKind.origin] at hs
      | argument number declared =>
        simp only [hn, NodeKind.origin, Source.taken.injEq] at hs
        subst hs
        rw [h _ _ _ _ hn, Option.some.injEq] at ht
        obtain ⟨rfl, hl⟩ := hg.lookup_of_open ht
        exact ⟨⟨number, inputs, rfl⟩, hl⟩

theorem Takes.within {types : List ValueType} (h : g.Takes types) (hg : g.Ordered)
    (ho : g.Produces o) : (g.source o).Within types.length := by
  induction o using hg.output_induction with
  | shuffle o s hr ih =>
    rw [hg.source_of_repeated hr]
    exact ih (hg.repeated_produces hr)
  | source o hr =>
    obtain ⟨⟨kind, inputs⟩, hn, -⟩ := ho.exists_node
    rw [source_of_origin hr hn]
    cases kind with
    | argument index declared => exact (List.getElem?_eq_some_iff.mp (h _ _ _ _ hn)).1
    | literal value => trivial
    | primitive p => trivial
    | call callee => trivial

end Graph
end StackEffect
