import StackEffect.Proofs.Draft.Typing
import StackEffect.Proofs.Graph.Source

/-!
Drafts and flows. The flow of a draft (`Draft.flow`) is all that matters for which words can follow:
what is popped off a draft is what is popped off its flow, and fails where that fails
(`Sound.flow_popAll`).
-/
namespace StackEffect

def Graph.typeOf (g : Graph) (o : Output) : ValueType := (g.outputType o).toOption.getD .any

theorem Graph.typeOf_of_ok {g : Graph} {o : Output} {type : ValueType}
    (h : g.outputType o = .ok type) : g.typeOf o = type := by
  rw [typeOf, h]
  rfl

/-- The flow of a body with these arguments that has these outputs on its stack. -/
def Graph.flow (g : Graph) (arguments : List NodeId) (stack : List Output) : Flow where
  takes := arguments.map fun id => g.typeOf ⟨id, 0⟩
  leaves := stack.map g.source

theorem Graph.takes_flow {g : Graph} {arguments : List NodeId} {stack : List Output}
    (h : ∀ {id index type inputs}, g.node? id = some ⟨.argument index type, inputs⟩ →
      arguments[index]? = some id) : g.Takes (g.flow arguments stack).takes := by
  intro id index declared inputs hn
  have htype : g.outputType ⟨id, 0⟩ = .ok (g.argumentType id declared) :=
    (outputType_of_argument hn).mpr rfl
  simp only [Graph.flow, List.getElem?_map, h hn, Option.map_some, typeOf_of_ok htype]

namespace Draft

def flow (d : Draft) : Flow := d.graph.flow d.arguments.toList d.stack

variable {V : Vocabulary} {d e later : Draft} {o : Output} {required : ValueType} {word : String}
  {position : Nat}

theorem Sound.takes (hd : d.Sound V) : d.graph.Takes d.flow.takes :=
  Graph.takes_flow fun hn => by simpa using hd.numbered hn

theorem Sound.valid_flow (hd : d.Sound V) : d.flow.Valid := by
  intro s hs
  obtain ⟨o, ho, rfl⟩ := List.mem_map.mp hs
  exact hd.takes.within hd.graph.ordered (hd.stack ho)

@[simp] theorem length_takes (d : Draft) : d.flow.takes.length = d.arguments.size := by
  simp [flow, Graph.flow]

theorem Sound.source_grow (hd : d.Sound V) (hl : later.Sound V) (h : d.Grows later)
    (ho : d.graph.Produces o) : later.graph.source o = d.graph.source o :=
  hd.graph.ordered.source_eq hl.graph.ordered h.graph.node ho

theorem Sound.sources_grow (hd : d.Sound V) (hl : later.Sound V) (h : d.Grows later)
    {os : List Output} (hos : ∀ o ∈ os, d.graph.Produces o) :
    os.map later.graph.source = os.map d.graph.source :=
  List.map_congr_left fun o ho => hd.source_grow hl h (hos o ho)

theorem Sound.takes_getElem? (hd : d.Sound V) {index id : Nat} (h : d.arguments[index]? = some id) :
    ∃ type, d.graph.outputType ⟨id, 0⟩ = .ok type ∧ d.flow.takes[index]? = some type := by
  obtain ⟨declared, inputs, hn⟩ := hd.argument h
  exact ⟨_, (Graph.outputType_of_argument hn).mpr rfl, hd.takes _ _ _ _ hn⟩

theorem takes_eq {types : List ValueType} (hl : types.length = d.arguments.size)
    (h : ∀ {index id : Nat} {type}, d.arguments[index]? = some id → types[index]? = some type →
      d.graph.outputType ⟨id, 0⟩ = .ok type) : d.flow.takes = types := by
  apply List.ext_getElem?
  intro index
  by_cases hi : index < d.arguments.size
  · have hid : d.arguments[index]? = some d.arguments[index] := Array.getElem?_eq_getElem hi
    have htype := List.getElem?_eq_getElem (hl ▸ hi)
    have ht := Graph.typeOf_of_ok (h hid htype)
    simp [flow, Graph.flow, hid, ht, htype]
  · have hle := Nat.le_of_not_lt hi
    rw [List.getElem?_eq_none (by simpa using hle), List.getElem?_eq_none (hl ▸ hle)]

/-! ### Taking values -/

theorem Sound.flow_assume (hd : d.Sound V) (type : ValueType) :
    (d.assume type).2.flow = { d.flow with takes := d.flow.takes ++ [type] } ∧
      (d.assume type).2.graph.source (d.assume type).1 = .taken d.flow.takes.length := by
  obtain ⟨sound, grows⟩ := hd.assume type
  have hn : (d.graph.add (.argument d.arguments.size type) []).node? d.graph.size =
      some ⟨.argument d.arguments.size type, []⟩ := Graph.node?_add_size ..
  have hleaves : (d.assume type).2.flow.leaves = d.flow.leaves :=
    hd.sources_grow sound grows fun o ho => hd.stack ho
  have htakes : (d.assume type).2.flow.takes = d.flow.takes ++ [type] := by
    have hl : (d.flow.takes ++ [type]).length = (d.arguments.push d.graph.size).size := by simp
    refine takes_eq hl fun {index id t} hid ht => ?_
    simp only [Draft.assume] at hid ⊢
    rw [Array.getElem?_push] at hid
    by_cases hi : index = d.arguments.size
    · subst hi
      rw [if_pos rfl] at hid
      cases hid
      have ht : t = type := by
        rw [← length_takes, List.getElem?_concat_length] at ht
        exact (Option.some.inj ht).symm
      have hlookup : d.graph.bindings.lookup d.graph.size = none := hd.graph.lookup_size
      rw [Graph.outputType_of_argument hn, ht, Graph.argumentType]
      simp [Graph.add, hlookup]
    · rw [if_neg hi] at hid
      obtain ⟨t', hout, htake⟩ := hd.takes_getElem? hid
      have hlt := (List.getElem?_eq_some_iff.mp htake).1
      rw [List.getElem?_append_left hlt, htake] at ht
      cases ht
      exact (hd.graph.ordered.outputType_add rfl (by simp) (Graph.produces_of_outputType hout)).mpr
        hout
  refine ⟨Flow.mk.injEq .. ▸ ⟨htakes, hleaves⟩, ?_⟩
  have hsource := @Graph.Ordered.source_of_node? _ (d.assume type).1 _ sound.graph.ordered hn
  rw [hsource, length_takes]
  rfl

theorem accept_eq_error {actual : ValueType} (ht : d.graph.outputType o = .ok actual)
    (hc : ¬ValueType.compatible required actual = true)
    (hb : ¬(required.isConcrete = true ∧ d.graph.isUnbound (d.graph.origin o).node = true)) :
    d.accept o required word position = .error (.typeMismatch word position required actual) := by
  have hopen : (actual = .any && required.isConcrete &&
      d.graph.isUnbound (d.graph.origin o).node) = false := by
    rw [Bool.and_assoc, Bool.and_eq_false_iff]
    right
    simpa using hb
  simp only [accept, ht, bind, Except.bind, hc, hopen, Bool.false_eq_true, if_false]
  rfl

theorem accept_of_isUnbound (ht : d.graph.outputType o = .ok .any)
    (hr : required.isConcrete = true)
    (hu : d.graph.isUnbound (d.graph.origin o).node = true) : d.accept o required word position =
      .ok { d with graph := d.graph.bind (d.graph.origin o).node required } := by
  have hc : ValueType.compatible required .any = false := by cases required <;> first | rfl | cases hr
  simp only [accept, ht, bind, Except.bind, hc, hr, hu, Bool.false_eq_true, if_false]
  rfl

theorem Sound.flow_bind (hd : d.Sound V) {index : Nat}
    (hs : d.graph.source o = .taken index) (hr : required.isConcrete = true)
    (hu : d.graph.isUnbound (d.graph.origin o).node = true) :
    { d with graph := d.graph.bind (d.graph.origin o).node required }.flow =
      { d.flow with takes := d.flow.takes.set index required } := by
  obtain ⟨sound, grows⟩ := hd.graph.bind hu hr
  have hid : d.arguments[index]? = some (d.graph.origin o).node := by
    obtain ⟨⟨number, inputs, hn⟩, -⟩ := Graph.isUnbound_iff.mp hu
    simp only [Graph.source, hn, NodeKind.origin, Source.taken.injEq] at hs
    exact hs ▸ hd.numbered hn
  have hleaves : d.stack.map (d.graph.bind (d.graph.origin o).node required).source =
      d.stack.map d.graph.source :=
    List.map_congr_left fun o' ho' =>
      hd.graph.ordered.source_eq sound.ordered grows.node (hd.stack ho')
  refine Flow.mk.injEq .. ▸ ⟨takes_eq (by simp) fun {i id type} hi ht => ?_, hleaves⟩
  obtain ⟨declared, inputs, hn⟩ := hd.argument hi
  have horigin : d.graph.origin ⟨id, 0⟩ = ⟨id, 0⟩ := by
    refine Graph.origin_of_source ?_
    rw [Graph.repeated?_of_node? hn]
    rfl
  obtain ⟨t, hout, htake⟩ := hd.takes_getElem? hi
  rw [hd.graph.ordered.outputType_bind hu (Graph.produces_of_outputType hout), horigin]
  by_cases heq : i = index
  · subst heq
    cases hid.symm.trans hi
    have hlt := (List.getElem?_eq_some_iff.mp htake).1
    rw [List.getElem?_set_self hlt] at ht
    rw [if_pos rfl, Option.some.inj ht]
  · rw [List.getElem?_set_ne (Ne.symm heq), htake] at ht
    have hne : id ≠ (d.graph.origin o).node := by
      intro h
      obtain ⟨_, _, hn'⟩ := hd.argument hid
      cases (h ▸ hn).symm.trans hn'
      exact heq rfl
    rw [if_neg hne, hout, Option.some.inj ht]

/-- A value may stand where a type is asked for if its source may. -/
theorem Sound.flow_accept (hd : d.Sound V) (ho : d.graph.Produces o) (required : ValueType)
    (word : String) (position : Nat) :
    match (d.graph.source o).accept required d.flow.takes with
    | some takes => ∃ e, d.accept o required word position = .ok e ∧ e.flow = { d.flow with takes }
    | none => ∃ fault, d.accept o required word position = .error fault := by
  have htype := hd.takes.outputType_eq hd.graph.ordered ho
  have hwithin := hd.takes.within hd.graph.ordered ho
  by_cases hc : ValueType.compatible required ((d.graph.source o).type d.flow.takes) = true
  · rw [Source.accept_of_compatible hwithin hc]
    refine ⟨d, ?_, rfl⟩
    simp only [Draft.accept, htype, bind, Except.bind, hc, if_true]
    rfl
  · by_cases hb : required.isConcrete = true ∧ d.graph.isUnbound (d.graph.origin o).node = true
    · obtain ⟨index, hs, ht⟩ := (hd.takes.isUnbound_iff hd.graph).mp hb.2
      have hopen := Graph.outputType_of_isUnbound hb.2 ho
      rw [hs, Source.accept_of_open ht hb.1]
      exact ⟨_, accept_of_isUnbound hopen hb.1 hb.2, hd.flow_bind hs hb.1 hb.2⟩
    · rw [Source.accept_eq_none hc fun index hs ht => ?_]
      · exact ⟨_, accept_eq_error htype hc hb⟩
      · have hu := (hd.takes.isUnbound_iff hd.graph).mpr ⟨index, hs, ht⟩
        simpa [hu] using hb

theorem Sound.flow_takeTop (hd : d.Sound V) (required : ValueType) :
    let (o, e) := d.takeTop required
    d.flow.pop required = ((e.graph.source o).accept required e.flow.takes).map fun takes =>
      (e.graph.source o, { e.flow with takes }) := by
  unfold Draft.takeTop
  cases hs : d.stack with
  | nil =>
    obtain ⟨hflow, hsource⟩ := hd.flow_assume required
    have hnil : d.flow.leaves = [] := by simp [flow, Graph.flow, hs]
    have hwithin : (Source.taken d.flow.takes.length).Within (d.flow.takes ++ [required]).length := by
      simp [Source.Within]
    have hc : ValueType.compatible required
        ((Source.taken d.flow.takes.length).type (d.flow.takes ++ [required])) = true := by
      simp [Source.type]
    simp only [hflow, hsource, Source.accept_of_compatible hwithin hc, Flow.pop_of_nil hnil,
      Option.map_some]
  | cons o rest =>
    have hcons : d.flow.leaves = d.graph.source o :: rest.map d.graph.source := by
      simp [flow, Graph.flow, hs]
    exact Flow.pop_of_cons hcons required

/-- What is popped off a draft is what is popped off its flow. -/
theorem Sound.flow_pop (hd : d.Sound V) (required : ValueType) (word : String) (position : Nat) :
    match d.flow.pop required with
    | some (s, F) => ∃ o e, Draft.pop required word position d = .ok o e ∧ e.flow = F ∧
        e.graph.source o = s
    | none => ∃ fault e, Draft.pop required word position d = .error fault e := by
  obtain ⟨sound, -⟩ := hd.takeTop required
  have ho := hd.produces_takeTop required
  have haccept := sound.flow_accept ho required word position
  have htop := hd.flow_takeTop required
  simp only at htop
  rw [htop]
  cases ha : ((d.takeTop required).2.graph.source (d.takeTop required).1).accept required
      (d.takeTop required).2.flow.takes with
  | none =>
    simp only [ha] at haccept
    obtain ⟨fault, he⟩ := haccept
    refine ⟨fault, (d.takeTop required).2, ?_⟩
    simp only [Draft.pop, he]
  | some takes =>
    simp only [ha] at haccept
    obtain ⟨e, he, hflow⟩ := haccept
    obtain ⟨sound', grows', -⟩ := sound.accept he
    exact ⟨_, e, pop_eq_ok.mpr ⟨rfl, he⟩, hflow, sound.source_grow sound' grows' ho⟩

theorem Sound.flow_popAll (hd : d.Sound V) (types : List ValueType) (word : String)
    (position : Nat) :
    match d.flow.popAll types with
    | some (sources, F) => ∃ os e, Draft.popAll types word position d = .ok os e ∧ e.flow = F ∧
        os.map e.graph.source = sources
    | none => ∃ fault e, Draft.popAll types word position d = .error fault e := by
  induction types generalizing d with
  | nil => exact ⟨[], d, rfl, rfl, rfl⟩
  | cons type types ih =>
    have hfirst := hd.flow_pop type word position
    rw [Flow.popAll_cons, popAll_cons]
    cases hp : d.flow.pop type with
    | none =>
      simp only [hp] at hfirst
      obtain ⟨fault, e, he⟩ := hfirst
      exact ⟨fault, e, Action.bind_of_error he _⟩
    | some x =>
      obtain ⟨s, F⟩ := x
      simp only [hp] at hfirst
      obtain ⟨o, d₁, h₁, rfl, rfl⟩ := hfirst
      obtain ⟨sound₁, -, accepts⟩ := hd.pop h₁
      have hrest := ih sound₁
      rw [Action.bind_of_ok h₁, Option.bind_some]
      cases hps : d₁.flow.popAll types with
      | none =>
        simp only [hps] at hrest
        obtain ⟨fault, e, he⟩ := hrest
        exact ⟨fault, e, Action.bind_of_error he _⟩
      | some x =>
        obtain ⟨ss, F⟩ := x
        simp only [hps] at hrest
        obtain ⟨os, e, he, rfl, rfl⟩ := hrest
        obtain ⟨sound, grows, -⟩ := sound₁.popAll he
        refine ⟨o :: os, e, Action.bind_of_ok he _, rfl, ?_⟩
        rw [List.map_cons, sound₁.source_grow sound grows accepts.produces]

end Draft
end StackEffect
