import StackEffect.Proofs.Definition.Splice
import StackEffect.Proofs.Draft.Flow

/-!
The flow of a body in the place of a call. Copies come from where the copied outputs come from, with
the caller's values for the arguments (`Copied.source_eq`), so that splicing a body goes on with the
flow of the body (`Sound.flow_inlineInto`).
-/
namespace StackEffect

namespace Draft
variable {V : Vocabulary} {d later : Draft}

theorem Sound.takes_grow (hd : d.Sound V) (h : d.Grows later)
    (ha : later.arguments = d.arguments) (hb : later.graph.bindings = d.graph.bindings) :
    later.flow.takes = d.flow.takes := by
  refine takes_eq (by rw [length_takes, ha]) fun {index id type} hid ht => ?_
  rw [ha] at hid
  obtain ⟨declared, inputs, hn⟩ := hd.argument hid
  have htype := hd.takes _ _ _ _ hn
  rw [ht, Option.some.injEq] at htype
  rw [Graph.outputType_of_argument (h.graph.node hn), htype, Graph.argumentType, hb]
  rfl

theorem Sound.flow_extend (hd : d.Sound V) {kind : NodeKind} {inputs : List Output}
    (hk : V.Has kind) (hn : ∀ index type, kind ≠ .argument index type)
    (hi : List.Forall₂ d.graph.Accepts kind.demands inputs) : (d.extend kind inputs).flow =
      { d.flow with leaves := kind.leaves (inputs.map d.graph.source) ++ d.flow.leaves } := by
  obtain ⟨sound, grows⟩ := hd.extend hk hn hi
  have hnode : (d.graph.add kind inputs).node? d.graph.size = some ⟨kind, inputs⟩ :=
    Graph.node?_add_size ..
  have hnew : (topOutputs d.graph.size kind.outputArity).map (d.extend kind inputs).graph.source =
      kind.leaves (inputs.map d.graph.source) := by
    rw [← hd.sources_grow sound grows (Graph.produces_of_accepts_all hi), topOutputs,
      NodeKind.leaves, List.map_reverse, List.map_map]
    refine congrArg List.reverse (List.map_congr_left fun index _ => ?_)
    exact @Graph.Ordered.source_of_node? _ ⟨d.graph.size, index⟩ _ sound.graph.ordered hnode
  have hleaves : (d.extend kind inputs).flow.leaves =
      kind.leaves (inputs.map d.graph.source) ++ d.flow.leaves := by
    rw [← hnew]
    exact List.map_append.trans
      (congrArg _ (hd.sources_grow sound grows fun o ho => hd.stack ho))
  exact Flow.mk.injEq .. ▸ ⟨hd.takes_grow grows rfl rfl, hleaves⟩

end Draft

namespace Definition

def flow (f : Definition) : Flow := f.graph.flow f.arguments f.outputs.reverse

variable {V : Vocabulary} {f : Definition}

theorem Sound.takes (hf : f.Sound V) : f.graph.Takes f.flow.takes :=
  Graph.takes_flow fun hn => hf.numbered hn

theorem Sound.valid_flow (hf : f.Sound V) : f.flow.Valid := by
  intro s hs
  obtain ⟨o, ho, rfl⟩ := List.mem_map.mp hs
  exact hf.takes.within hf.graph.ordered (hf.outputs (List.mem_reverse.mp ho))

theorem Sound.signature_eq (hf : f.Sound V) : f.signature =
    .ok ⟨f.flow.takes, (f.flow.leaves.map (·.type f.flow.takes)).reverse⟩ := by
  refine signature_eq_ok.mpr ⟨?_, ?_⟩
  · refine List.forall₂_map_right_iff.mpr (List.forall₂_same.mpr fun id hid => ?_)
    obtain ⟨index, hk⟩ := List.mem_iff_getElem?.mp hid
    obtain ⟨type, ht⟩ := hf.graph.ordered.exists_outputType (hf.formed.produces_argument hk)
    rw [Graph.typeOf_of_ok ht, ht]
  · have houtputs : (f.flow.leaves.map (·.type f.flow.takes)).reverse =
        f.outputs.map fun o => (f.graph.source o).type f.flow.takes := by
      simp [flow, Graph.flow]
    rw [houtputs]
    exact List.forall₂_map_right_iff.mpr <| List.forall₂_same.mpr fun o ho =>
      hf.takes.outputType_eq hf.graph.ordered (hf.outputs ho)

section Copied
variable {arguments : List Output} {start d : Draft} {nodes : List Node}
  {copies : Array (Option NodeId)}

theorem Copied.source_eq {types : List ValueType} {rest : List Node}
    (h : Copied f arguments start nodes copies d) (hf : f.Sound V) (hs : start.Sound V)
    (htypes : List.Forall₂ (fun (id : NodeId) type => f.graph.outputType ⟨id, 0⟩ = .ok type)
      f.arguments types)
    (ha : List.Forall₂ start.graph.Accepts types arguments)
    (hnodes : f.graph.nodes.toList = nodes ++ rest) {o o' : Output} (ho : f.graph.Produces o)
    (hlt : o.node < nodes.length) (hcopy : f.transfer arguments copies o = .ok o') :
    d.graph.source o' = (f.graph.source o).via (arguments.map start.graph.source) := by
  induction h generalizing rest o o' with
  | none => exact absurd hlt (Nat.not_lt_zero _)
  | @argument nodes copies d index type inputs h ih =>
    rw [List.append_assoc] at hnodes
    rw [List.length_append, List.length_singleton] at hlt
    rcases Nat.lt_succ_iff_lt_or_eq.mp hlt with hlt | heq
    · rw [transfer_eq_of_lt (h.length ▸ hlt)] at hcopy
      exact ih hnodes ho hlt hcopy
    · obtain ⟨sound, grows, -⟩ := h.sound hf hs htypes ha hnodes
      have hn : f.graph.node? o.node = some ⟨.argument index type, inputs⟩ :=
        heq ▸ Graph.node?_of_toList hnodes
      obtain ⟨type', ht, -⟩ := Pointwise.right_of_left htypes (hf.numbered hn)
      obtain ⟨o'', ho'', accepts⟩ := Pointwise.right_of_left ha ht
      cases hcopy.symm.trans (transfer_argument hn ho'')
      have hsource : f.graph.source o = .taken index := hf.graph.ordered.source_of_node? hn
      rw [hsource, hs.source_grow sound grows accepts.produces]
      simp [Source.via, ho'']
  | @node nodes copies d n inputs h hk hi ih =>
    obtain ⟨sound', grows', -⟩ := (h.node hk hi).sound hf hs htypes ha hnodes
    rw [List.append_assoc] at hnodes
    obtain ⟨sound, -, outputs⟩ := h.sound hf hs htypes ha hnodes
    rw [List.length_append, List.length_singleton] at hlt
    -- The graph has one node more than when the older outputs were copied.
    have hold : ∀ {s s' : Output}, f.graph.Produces s → s.node < nodes.length →
        f.transfer arguments copies s = .ok s' →
        (d.graph.add n.kind inputs).source s' =
          (f.graph.source s).via (arguments.map start.graph.source) := by
      intro s s' hs hlt hcopy
      obtain ⟨s'', hs'', accepts⟩ := outputs s hs hlt
      cases hcopy.symm.trans hs''
      obtain ⟨type, ht⟩ := hf.graph.ordered.exists_outputType hs
      rw [← ih hnodes hs hlt hcopy]
      exact sound.graph.ordered.source_eq sound'.graph.ordered Graph.node?_add_of_some
        (accepts type ht).produces
    rcases Nat.lt_succ_iff_lt_or_eq.mp hlt with hlt | heq
    · rw [transfer_eq_of_lt (h.length ▸ hlt)] at hcopy
      exact hold ho hlt hcopy
    · have hlast : f.graph.node? nodes.length = some n := Graph.node?_of_toList hnodes
      have hn : f.graph.node? o.node = some n := heq ▸ hlast
      have hc : (copies.push (some d.graph.size))[o.node]? = some (some d.graph.size) := by
        rw [Array.getElem?_push, if_pos (heq.trans h.length.symm)]
      cases hcopy.symm.trans (transfer_copy hn hk hc)
      have hnew : (d.graph.add n.kind inputs).node? d.graph.size = some ⟨n.kind, inputs⟩ :=
        Graph.node?_add_size ..
      have hinputs : inputs.map (d.graph.add n.kind inputs).source =
          (n.inputs.map f.graph.source).map (·.via (arguments.map start.graph.source)) := by
        rw [List.map_map]
        have hcopies := Pointwise.with_mem (Except.mapM_eq_ok.mp hi)
        refine Pointwise.map_eq_map (Pointwise.symm (hcopies.imp fun s s' hboth => ?_))
        exact hold (hf.graph.ordered.produces hlast hboth.1)
          (hf.graph.ordered.earlier hlast hboth.1) hboth.2
      rw [@Graph.Ordered.source_of_node? _ ⟨d.graph.size, o.index⟩ _ sound'.graph.ordered hnew,
        hf.graph.ordered.source_of_node? hn, NodeKind.source_via hk, hinputs]

end Copied

/-- To splice a body is to go on with its flow. -/
theorem Sound.flow_inlineInto {start d e : Draft} {s : Signature} {os : List Output}
    {position : Nat} {u : Unit} (hf : f.Sound V) (hd : start.Sound V) (hs : f.signature = .ok s)
    (hp : Draft.popAll s.inputs f.name position start = .ok os d)
    (h : f.inlineInto position start = .ok u e) :
    e.flow = f.flow.onto (os.map d.graph.source) d.flow := by
  obtain ⟨s', os', d', copies, d₂, results, hs', hp', hc, hr, rfl⟩ :=
    inlineInto_eq_ok (fun _ hn => hf.graph.ordered.length_of_mem hn) h
  cases hs.symm.trans hs'
  cases hp.symm.trans hp'
  obtain ⟨sound, -, accepts⟩ := hd.popAll hp
  have hnodes : f.graph.nodes.toList = f.graph.nodes.toList ++ [] := (List.append_nil _).symm
  have htypes := (signature_eq_ok.mp hs).1
  obtain ⟨sound₂, grows₂, -⟩ := hc.sound hf sound htypes accepts hnodes
  have hresults : results.map d₂.graph.source =
      (f.outputs.map f.graph.source).map (·.via (os.map d.graph.source)) := by
    rw [List.map_map]
    have hcopies := Pointwise.with_mem (Except.mapM_eq_ok.mp hr)
    refine Pointwise.map_eq_map (Pointwise.symm (hcopies.imp fun o o' hboth => ?_))
    have ho := hf.outputs hboth.1
    exact hc.source_eq hf sound htypes accepts hnodes ho
      (by simpa [Graph.size] using ho.lt_size) hboth.2
  have htakes : d₂.flow.takes = d.flow.takes :=
    sound.takes_grow grows₂ hc.arguments_eq hc.bindings_eq
  have hstack : d₂.stack.map d₂.graph.source = d.stack.map d.graph.source := by
    rw [hc.stack]
    exact sound.sources_grow sound₂ grows₂ fun o ho => sound.stack ho
  have hleaves : (results.reverse ++ d₂.stack).map d₂.graph.source =
      f.flow.leaves.map (·.via (os.map d.graph.source)) ++ d.flow.leaves := by
    rw [List.map_append, List.map_reverse, hresults, hstack]
    simp [flow, Draft.flow, Graph.flow]
  exact Flow.mk.injEq .. ▸ ⟨htakes, hleaves⟩

end Definition
end StackEffect
