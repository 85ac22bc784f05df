import Mathlib.Data.List.Nodup
import StackEffect.Proofs.Definition.Splice

/-! Sound definitions spelled out: what holds of each node, argument, output and binding. -/
namespace StackEffect

theorem Graph.inputType_of_demands {g : Graph} {id : NodeId} {n : Node} {slot : Nat}
    {type : ValueType} (hn : g.node? id = some n) (h : n.kind.demands[slot]? = some type) :
    g.inputType id slot = .ok type := by
  unfold inputType
  simp only [hn, Option.map_some]
  cases hk : n.kind with
  | literal value => simp [hk, NodeKind.demands] at h
  | argument index declared => simp [hk, NodeKind.demands] at h
  | primitive p =>
    simp only [hk, NodeKind.demands, List.getElem?_replicate] at h
    by_cases hs : slot < p.inputArity
    · simp only [hs, if_true, Option.some.injEq] at h
      simp [Primitive.inputType, hs, h]
    · simp [hs] at h
  | call callee =>
    rw [hk] at h
    simp only [NodeKind.demands] at h
    simp [h]

namespace Definition

/-- The body is a graph without circles in which all references lead somewhere, arguments are
numbered as they are listed, and every input has a type that will do where it is used. -/
structure WellTyped (d : Definition) : Prop where
  inputCount : ∀ {id n}, d.graph.node? id = some n → n.inputs.length = n.inputArity
  inputEarlier : ∀ {id n o}, d.graph.node? id = some n → o ∈ n.inputs →
    o.node < id ∧ o.index < d.graph.outputArity o.node
  argumentNode : ∀ {k id : Nat}, d.arguments[k]? = some id →
    ∃ declared inputs, d.graph.node? id = some ⟨.argument k declared, inputs⟩
  argumentOnce : ∀ {id k declared inputs}, d.graph.node? id = some ⟨.argument k declared, inputs⟩ →
    d.arguments.count id = 1
  outputValid : ∀ {o}, o ∈ d.outputs →
    o.node < d.graph.size ∧ o.index < d.graph.outputArity o.node
  bindingConcrete : ∀ {id type}, (id, type) ∈ d.graph.bindings → type.isConcrete = true ∧
    ∃ k inputs, d.graph.node? id = some ⟨.argument k .any, inputs⟩
  slotCompatible : ∀ {id n} {slot : Nat} {o}, d.graph.node? id = some n →
    n.inputs[slot]? = some o → ∃ required actual, d.graph.inputType id slot = .ok required ∧
      d.graph.outputType o = .ok actual ∧ ValueType.compatible required actual = true

theorem Sound.nodup_arguments {V : Vocabulary} {f : Definition} (hf : f.Sound V) :
    f.arguments.Nodup := by
  refine List.nodup_iff_getElem?_ne_getElem?.mpr fun i j hij hj heq => ?_
  have hjs := List.getElem?_eq_getElem hj
  obtain ⟨type, inputs, hn⟩ := hf.argument (heq.trans hjs)
  obtain ⟨type', inputs', hn'⟩ := hf.argument hjs
  cases hn.symm.trans hn'
  exact Nat.lt_irrefl _ hij

theorem Sound.wellTyped {V : Vocabulary} {f : Definition} (hf : f.Sound V) : f.WellTyped where
  inputCount hn := hf.graph.ordered.length hn
  inputEarlier hn ho := ⟨hf.graph.ordered.earlier hn ho, hf.graph.ordered.produces hn ho⟩
  argumentNode := hf.argument
  argumentOnce hn :=
    List.count_eq_one_of_mem hf.nodup_arguments (List.mem_of_getElem? (hf.numbered hn))
  outputValid ho := ⟨(hf.outputs ho).lt_size, hf.outputs ho⟩
  bindingConcrete := hf.graph.bound
  slotCompatible hn ho := by
    obtain ⟨required, hr, actual, ha, hc⟩ := Pointwise.left_of_right (hf.graph.typed hn) ho
    exact ⟨required, actual, Graph.inputType_of_demands hn hr, ha, hc⟩

end Definition
end StackEffect
