import StackEffect.Draft
import StackEffect.Proofs.Graph.Typing
import StackEffect.Proofs.Sequencing

/-!
Drafts stay sound while words are added to them: the graph is sound, the stack holds outputs of the
graph, and the arguments are just the argument nodes in the order of their numbers. What is popped
has the type that was asked for, from then on (`Sound.popAll`).
-/
namespace StackEffect.Draft

structure Sound (V : Vocabulary) (d : Draft) : Prop where
  graph : d.graph.Sound V
  stack : ∀ {o}, o ∈ d.stack → d.graph.Produces o
  argument : ∀ {index id : Nat}, d.arguments[index]? = some id →
    ∃ type inputs, d.graph.node? id = some ⟨.argument index type, inputs⟩
  numbered : ∀ {id index type inputs}, d.graph.node? id = some ⟨.argument index type, inputs⟩ →
    d.arguments[index]? = some id

/-- The arguments of a draft are just its argument nodes, by number. -/
structure Numbered (d : Draft) : Prop where
  argument : ∀ {index id : Nat}, d.arguments[index]? = some id →
    ∃ type inputs, d.graph.node? id = some ⟨.argument index type, inputs⟩
  numbered : ∀ {id index type inputs}, d.graph.node? id = some ⟨.argument index type, inputs⟩ →
    d.arguments[index]? = some id

theorem Sound.inNumbers {V : Vocabulary} {d : Draft} (hd : d.Sound V) : d.Numbered :=
  ⟨hd.argument, hd.numbered⟩

/-- `later` is the draft with more nodes and arguments, and with more known of its types. -/
structure Grows (d later : Draft) : Prop where
  graph : d.graph.Grows later.graph
  arguments : ∀ {index id : Nat}, d.arguments[index]? = some id → later.arguments[index]? = some id

theorem Grows.refl (d : Draft) : d.Grows d := ⟨.refl _, id⟩

theorem Grows.trans {d later latest : Draft} (h : d.Grows later) (h' : later.Grows latest) :
    d.Grows latest := ⟨h.graph.trans h'.graph, fun ha => h'.arguments (h.arguments ha)⟩

theorem Grows.size_le {d later : Draft} (h : d.Grows later) :
    d.arguments.size ≤ later.arguments.size := by
  by_contra hlt
  have hget := Array.getElem?_eq_getElem (Nat.lt_of_not_le hlt)
  have hnone := Array.getElem?_eq_none (Nat.le_refl later.arguments.size)
  rw [h.arguments hget] at hnone
  cases hnone

theorem Sound.empty (V : Vocabulary) : Sound V {} := by
  constructor <;> simp [Graph.Sound.empty, Graph.node?]

/-! ### Arguments and their numbers -/

section Numbered
variable {d : Draft}

theorem Numbered.empty : Numbered {} := (Sound.empty fun _ => True).inNumbers

theorem getElem?_assume (d : Draft) (type : ValueType) {k id : Nat} :
    (d.assume type).2.arguments[k]? = some id ↔
      k = d.arguments.size ∧ id = d.graph.size ∨ d.arguments[k]? = some id := by
  rw [assume, Array.getElem?_push]
  by_cases hk : k = d.arguments.size <;> simp [hk, eq_comm]

theorem Numbered.assume (hd : d.Numbered) (type : ValueType) : (d.assume type).2.Numbered := by
  constructor
  · intro k id hk
    rcases (getElem?_assume d type).mp hk with ⟨rfl, rfl⟩ | hk
    · exact ⟨type, [], Graph.node?_add_size ..⟩
    · obtain ⟨t, inputs, hn⟩ := hd.argument hk
      exact ⟨t, inputs, Graph.node?_add_of_some hn⟩
  · intro id k t inputs hn
    apply (getElem?_assume d type).mpr
    rcases Graph.node?_add_eq_some.mp hn with ⟨rfl, h⟩ | hn
    · cases h
      exact .inl ⟨rfl, rfl⟩
    · exact .inr (hd.numbered hn)

theorem Numbered.addNode {kind : NodeKind} (hd : d.Numbered)
    (hn : ∀ index type, kind ≠ .argument index type) (inputs : List Output) :
    { d with graph := d.graph.add kind inputs }.Numbered := by
  constructor
  · intro k id hk
    obtain ⟨type, inputs, hn⟩ := hd.argument hk
    exact ⟨type, inputs, Graph.node?_add_of_some hn⟩
  · intro id k type inputs' h
    rcases Graph.node?_add_eq_some.mp h with ⟨-, h⟩ | h
    · cases h
      exact absurd rfl (hn k type)
    · exact hd.numbered h

end Numbered

/-! ### Taking values -/

section Pop
variable {V : Vocabulary} {d e : Draft} {o : Output} {required : ValueType} {word : String}
  {position : Nat}

theorem pop_eq_ok : pop required word position d = .ok o e ↔
    (d.takeTop required).1 = o ∧
      (d.takeTop required).2.accept o required word position = .ok e := by
  unfold pop
  cases h : (d.takeTop required).2.accept (d.takeTop required).1 required word position with
  | ok d' =>
    simp only [h, EStateM.Result.ok.injEq]
    constructor
    · rintro ⟨rfl, rfl⟩
      exact ⟨rfl, h⟩
    · rintro ⟨rfl, h'⟩
      exact ⟨rfl, by simpa [h] using h'⟩
  | error f =>
    simp only [h]
    constructor
    · intro h'
      cases h'
    · rintro ⟨rfl, h'⟩
      simp [h] at h'

/-- Either the output has the type already, or its argument takes it on. -/
theorem accept_eq_ok (h : d.accept o required word position = .ok e) :
    (e = d ∧ d.graph.Accepts required o) ∨
    (required.isConcrete = true ∧ d.graph.isUnbound (d.graph.origin o).node = true ∧
      d.graph.outputType o = .ok .any ∧
      e = { d with graph := d.graph.bind (d.graph.origin o).node required }) := by
  unfold accept at h
  obtain ⟨actual, ha, h⟩ := Except.bind_eq_ok.mp h
  by_cases hc : ValueType.compatible required actual = true
  · simp only [hc, if_true] at h
    cases h
    exact .inl ⟨rfl, actual, ha, hc⟩
  · simp only [hc, Bool.false_eq_true, if_false] at h
    split at h
    · rename_i hb
      simp only [Bool.and_eq_true, decide_eq_true_eq] at hb
      obtain ⟨⟨rfl, hr⟩, hu⟩ := hb
      cases h
      exact .inr ⟨hr, hu, ha, rfl⟩
    · cases h

theorem Sound.accept (hd : d.Sound V) (h : d.accept o required word position = .ok e) :
    e.Sound V ∧ d.Grows e ∧ e.graph.Accepts required o := by
  rcases accept_eq_ok h with ⟨rfl, ha⟩ | ⟨hr, hu, ht, rfl⟩
  · exact ⟨hd, .refl _, ha⟩
  · obtain ⟨sound, grows⟩ := hd.graph.bind hu hr
    refine ⟨⟨sound, hd.stack, hd.argument, hd.numbered⟩, ⟨grows, id⟩, required, ?_, by simp⟩
    rw [hd.graph.ordered.outputType_bind hu (Graph.produces_of_outputType ht), if_pos rfl]

theorem Sound.assume (hd : d.Sound V) (type : ValueType) :
    (d.assume type).2.Sound V ∧ d.Grows (d.assume type).2 := by
  have hk : V.Has (.argument d.arguments.size type) := trivial
  obtain ⟨sound, grows⟩ := hd.graph.add hk .nil
  obtain ⟨argument, numbered⟩ := hd.inNumbers.assume type
  refine ⟨⟨sound, fun ho => grows.produces (hd.stack ho), argument, numbered⟩, grows, ?_⟩
  intro k id hk
  exact (getElem?_assume d type).mpr (.inr hk)

theorem Sound.takeTop (hd : d.Sound V) (type : ValueType) :
    (d.takeTop type).2.Sound V ∧ d.Grows (d.takeTop type).2 := by
  unfold Draft.takeTop
  cases hs : d.stack with
  | nil => exact hd.assume type
  | cons o rest =>
    refine ⟨⟨hd.graph, fun ho => hd.stack ?_, hd.argument, hd.numbered⟩, .refl _, id⟩
    rw [hs]
    exact List.mem_cons_of_mem _ ho

theorem Sound.pop (hd : d.Sound V) (h : pop required word position d = .ok o e) :
    e.Sound V ∧ d.Grows e ∧ e.graph.Accepts required o := by
  obtain ⟨-, ha⟩ := pop_eq_ok.mp h
  obtain ⟨sound, grows⟩ := hd.takeTop required
  obtain ⟨sound', grows', accepts⟩ := sound.accept ha
  exact ⟨sound', grows.trans grows', accepts⟩

theorem popAll_cons (type : ValueType) (types : List ValueType) (word : String) (position : Nat) :
    popAll (type :: types) word position = (do
      let o ← Draft.pop type word position
      let os ← popAll types word position
      return o :: os) := by
  simp [popAll]

theorem Sound.popAll {types : List ValueType} {os : List Output} (hd : d.Sound V)
    (h : popAll types word position d = .ok os e) :
    e.Sound V ∧ d.Grows e ∧ List.Forall₂ e.graph.Accepts types os := by
  induction types generalizing d os with
  | nil =>
    cases h
    exact ⟨hd, .refl _, .nil⟩
  | cons type types ih =>
    rw [popAll_cons] at h
    obtain ⟨o, d₁, h₁, h⟩ := Action.bind_eq_ok.mp h
    obtain ⟨os, d₂, h₂, h⟩ := Action.bind_eq_ok.mp h
    cases h
    obtain ⟨sound₁, grows₁, accepts₁⟩ := hd.pop h₁
    obtain ⟨sound₂, grows₂, accepts₂⟩ := ih sound₁ h₂
    exact ⟨sound₂, grows₁.trans grows₂, .cons (accepts₁.grow grows₂.graph) accepts₂⟩

theorem Sound.produces_takeTop (hd : d.Sound V) (type : ValueType) :
    (d.takeTop type).2.graph.Produces (d.takeTop type).1 := by
  unfold Draft.takeTop
  cases hs : d.stack with
  | nil => exact Graph.produces_of_node? (Graph.node?_add_size ..) Nat.zero_lt_one
  | cons o rest =>
    refine hd.stack ?_
    rw [hs]
    exact List.mem_cons_self

/-- A type that does not fit is all that can stand in the way. -/
theorem Sound.pop_error {fault : CompileError} (hd : d.Sound V)
    (h : Draft.pop required word position d = .error fault e) :
    ∃ actual, fault = .typeMismatch word position required actual := by
  obtain ⟨sound, -⟩ := hd.takeTop required
  obtain ⟨actual, ha⟩ := sound.graph.ordered.exists_outputType (hd.produces_takeTop required)
  have hfault : (d.takeTop required).2.accept (d.takeTop required).1 required word position =
      .error fault := by
    unfold Draft.pop at h
    simp only at h
    split at h
    · cases h
    · cases h
      assumption
  refine ⟨actual, ?_⟩
  unfold Draft.accept at hfault
  simp only [ha, bind, Except.bind] at hfault
  split_ifs at hfault <;> cases hfault
  rfl

theorem Sound.popAll_error {types : List ValueType} {fault : CompileError} (hd : d.Sound V)
    (h : Draft.popAll types word position d = .error fault e) :
    ∃ required ∈ types, ∃ actual, fault = .typeMismatch word position required actual := by
  induction types generalizing d with
  | nil => cases h
  | cons type types ih =>
    rw [popAll_cons] at h
    rcases Action.bind_eq_error.mp h with h₁ | ⟨o, d₁, h₁, h⟩
    · obtain ⟨actual, rfl⟩ := hd.pop_error h₁
      exact ⟨type, List.mem_cons_self, actual, rfl⟩
    · rcases Action.bind_eq_error.mp h with h₂ | ⟨os, d₂, -, h⟩
      · obtain ⟨required, hmem, actual, rfl⟩ := ih (hd.pop h₁).1 h₂
        exact ⟨required, List.mem_cons_of_mem type hmem, actual, rfl⟩
      · cases h

end Pop

/-! ### Adding nodes -/

def topOutputs (id : NodeId) (arity : Nat) : List Output :=
  ((List.range arity).map (Output.mk id ·)).reverse

theorem mem_topOutputs {id : NodeId} {arity : Nat} {o : Output} :
    o ∈ topOutputs id arity ↔ o.node = id ∧ o.index < arity := by
  simp only [topOutputs, List.mem_reverse, List.mem_map, List.mem_range]
  constructor
  · rintro ⟨i, hlt, rfl⟩
    exact ⟨rfl, hlt⟩
  · rintro ⟨rfl, hlt⟩
    exact ⟨o.index, hlt, rfl⟩

theorem pushNode_eq (d : Draft) (id : NodeId) :
    d.pushNode id = { d with stack := topOutputs id (d.graph.outputArity id) ++ d.stack } := by
  have hfold : ∀ (indices : List Nat) (d : Draft),
      indices.foldl (fun d index => d.pushOutput ⟨id, index⟩) d =
        { d with stack := (indices.map (Output.mk id ·)).reverse ++ d.stack } := by
    intro indices
    induction indices with
    | nil => intro d; rfl
    | cons i is ih =>
      intro d
      rw [List.foldl_cons, ih]
      simp [pushOutput]
  exact hfold _ d

def extend (d : Draft) (kind : NodeKind) (inputs : List Output) : Draft :=
  { d with
    graph := d.graph.add kind inputs
    stack := topOutputs d.graph.size kind.outputArity ++ d.stack }

section Extend
variable {V : Vocabulary} {d e : Draft} {position : Nat}

theorem insert_eq_ok {add : Graph → Except CompileError Graph} {id : NodeId} :
    insert add d = .ok id e ↔
      ∃ g, add d.graph = .ok g ∧ id = d.graph.size ∧ e = { d with graph := g } := by
  unfold insert
  cases add d.graph <;> simp [eq_comm]

theorem place_eq_ok {add : Graph → Except CompileError Graph} {id : NodeId} :
    place add d = .ok id e ↔
      ∃ g, add d.graph = .ok g ∧ id = d.graph.size ∧ e = { d with graph := g }.pushNode id := by
  unfold place
  rw [Action.bind_eq_ok]
  constructor
  · rintro ⟨i, d₁, h, h'⟩
    obtain ⟨g, hg, rfl, rfl⟩ := insert_eq_ok.mp h
    cases h'
    exact ⟨g, hg, rfl, rfl⟩
  · rintro ⟨g, hg, rfl, rfl⟩
    exact ⟨_, _, insert_eq_ok.mpr ⟨g, hg, rfl, rfl⟩, rfl⟩

theorem pushNode_add (d : Draft) (kind : NodeKind) (inputs : List Output) :
    { d with graph := d.graph.add kind inputs }.pushNode d.graph.size = d.extend kind inputs := by
  rw [pushNode_eq, Graph.outputArity_of_node? (Graph.node?_add_size ..)]
  rfl

theorem literal_apply (d : Draft) (value : Value) :
    literal value d = .ok d.graph.size (d.extend (.literal value) []) := by
  rw [literal, place_eq_ok]
  exact ⟨_, rfl, rfl, (pushNode_add ..).symm⟩

theorem length_popAll {types : List ValueType} {word : String} {os : List Output}
    (h : popAll types word position d = .ok os e) : os.length = types.length := by
  induction types generalizing d os with
  | nil => cases h; rfl
  | cons type types ih =>
    rw [popAll_cons] at h
    obtain ⟨o, d₁, -, h⟩ := Action.bind_eq_ok.mp h
    obtain ⟨os, d₂, h₂, h⟩ := Action.bind_eq_ok.mp h
    cases h
    simp [ih h₂]

theorem apply_eq_ok {p : Primitive} {id : NodeId} : apply p position d = .ok id e ↔
    ∃ os d₁, popAll (List.replicate p.inputArity p.operandType) p.name position d = .ok os d₁ ∧
      id = d₁.graph.size ∧ e = d₁.extend (.primitive p) os.reverse := by
  unfold apply
  rw [Action.bind_eq_ok]
  refine exists_congr fun os => exists_congr fun d₁ => and_congr_right fun h => ?_
  have hl := length_popAll h
  rw [List.length_replicate] at hl
  rw [place_eq_ok]
  constructor
  · rintro ⟨g, hg, rfl, rfl⟩
    obtain ⟨-, rfl⟩ := Graph.addPrimitive_eq_ok.mp hg
    exact ⟨rfl, pushNode_add ..⟩
  · rintro ⟨rfl, rfl⟩
    have hr : os.reverse.length = p.inputArity := List.length_reverse.trans hl
    exact ⟨_, Graph.addPrimitive_eq_ok.mpr ⟨hr, rfl⟩, rfl, (pushNode_add ..).symm⟩

theorem call_eq_ok {callee : Callee} {id : NodeId} : call callee position d = .ok id e ↔
    ∃ os d₁, popAll callee.signature.inputs callee.name position d = .ok os d₁ ∧
      id = d₁.graph.size ∧ e = d₁.extend (.call callee) os := by
  unfold call
  rw [Action.bind_eq_ok]
  refine exists_congr fun os => exists_congr fun d₁ => and_congr_right fun h => ?_
  have hl : os.length = callee.signature.inputArity := length_popAll h
  rw [place_eq_ok]
  constructor
  · rintro ⟨g, hg, rfl, rfl⟩
    obtain ⟨-, rfl⟩ := Graph.addCall_eq_ok.mp hg
    exact ⟨rfl, pushNode_add ..⟩
  · rintro ⟨rfl, rfl⟩
    exact ⟨_, Graph.addCall_eq_ok.mpr ⟨hl, rfl⟩, rfl, (pushNode_add ..).symm⟩

theorem Sound.addNode {kind : NodeKind} {inputs : List Output} (hd : d.Sound V)
    (hk : V.Has kind) (hn : ∀ index type, kind ≠ .argument index type)
    (hi : List.Forall₂ d.graph.Accepts kind.demands inputs) :
    { d with graph := d.graph.add kind inputs }.Sound V ∧
      d.Grows { d with graph := d.graph.add kind inputs } := by
  obtain ⟨sound, grows⟩ := hd.graph.add hk hi
  obtain ⟨argument, numbered⟩ := hd.inNumbers.addNode hn inputs
  exact ⟨⟨sound, fun ho => grows.produces (hd.stack ho), argument, numbered⟩, grows, id⟩

theorem Sound.extend {kind : NodeKind} {inputs : List Output} (hd : d.Sound V)
    (hk : V.Has kind) (hn : ∀ index type, kind ≠ .argument index type)
    (hi : List.Forall₂ d.graph.Accepts kind.demands inputs) :
    (d.extend kind inputs).Sound V ∧ d.Grows (d.extend kind inputs) := by
  obtain ⟨sound, grows⟩ := hd.addNode hk hn hi
  refine ⟨⟨sound.graph, ?_, sound.argument, sound.numbered⟩, grows.graph, grows.arguments⟩
  intro o ho
  rcases List.mem_append.mp ho with ho | ho
  · obtain ⟨hid, hindex⟩ := mem_topOutputs.mp ho
    have hnode : (d.graph.add kind inputs).node? o.node = some ⟨kind, inputs⟩ :=
      hid ▸ Graph.node?_add_size ..
    exact Graph.produces_of_node? hnode hindex
  · exact sound.stack ho

theorem Sound.literal {value : Value} {id : NodeId} (hd : d.Sound V)
    (h : literal value d = .ok id e) : e.Sound V ∧ d.Grows e := by
  rw [literal_apply] at h
  cases h
  exact hd.extend trivial (by simp) .nil

/-- The inputs of a primitive go from the bottom up, and all have to be of one type. -/
theorem accepts_primitive {g : Graph} {p : Primitive} {os : List Output}
    (h : List.Forall₂ g.Accepts (List.replicate p.inputArity p.operandType) os) :
    List.Forall₂ g.Accepts (NodeKind.primitive p).demands os.reverse := by
  have hr := List.forall₂_reverse_iff.mpr h
  rwa [List.reverse_replicate] at hr

theorem Sound.apply {p : Primitive} {id : NodeId} (hd : d.Sound V) (hp : p.Regular)
    (h : apply p position d = .ok id e) : e.Sound V ∧ d.Grows e := by
  obtain ⟨os, d₁, h₁, -, rfl⟩ := apply_eq_ok.mp h
  obtain ⟨sound, grows, accepts⟩ := hd.popAll h₁
  have hk : V.Has (.primitive p) := hp
  obtain ⟨sound', grows'⟩ := sound.extend hk (by simp) (accepts_primitive accepts)
  exact ⟨sound', grows.trans grows'⟩

theorem Sound.call {callee : Callee} {id : NodeId} (hd : d.Sound V) (hc : V callee)
    (h : call callee position d = .ok id e) : e.Sound V ∧ d.Grows e := by
  obtain ⟨os, d₁, h₁, -, rfl⟩ := call_eq_ok.mp h
  obtain ⟨sound, grows, accepts⟩ := hd.popAll h₁
  have hk : V.Has (.call callee) := hc
  obtain ⟨sound', grows'⟩ := sound.extend hk (by simp) accepts
  exact ⟨sound', grows.trans grows'⟩

end Extend

end StackEffect.Draft
