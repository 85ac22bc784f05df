import Mathlib.Logic.Relation
import Mathlib.Tactic.IntervalCases
import StackEffect.Proofs.Definition.Splice

/-!
Types while a body is read, whatever the operations and whether they succeed. A draft in order stays in
order (`Formed`), and what comes of it has the same nodes with types that are no less definite, the
same arguments and the same bindings behind later ones (`Matures`). Only a value that is popped has a
type bound to it, so that an argument is bound once at most (`refined_of_steps`).
-/
namespace StackEffect.Draft

/-- A draft in order, of whatever types. Its bindings are those of arguments that were declared without
a type, no argument is bound twice, and the arguments stand in the order of their creation. -/
structure Formed (d : Draft) : Prop where
  ordered : d.graph.Ordered
  stack : ∀ {o}, o ∈ d.stack → d.graph.Produces o
  bound : ∀ {id type}, (id, type) ∈ d.graph.bindings → type.isConcrete = true ∧
    ∃ index inputs, d.graph.node? id = some ⟨.argument index .any, inputs⟩
  once : (d.graph.bindings.map Prod.fst).Nodup
  inNumbers : d.Numbered
  increasing : d.arguments.toList.Pairwise (· < ·)

/-- `later` is what has come of a draft: it is in order, types have become no less definite, and the
bindings so far stand behind the later ones. -/
structure Matures (d later : Draft) : Prop where
  formed : later.Formed
  grows : d.Grows later
  bindings : d.graph.bindings <:+ later.graph.bindings

theorem Formed.empty : Formed {} where
  ordered := .empty
  stack := by simp
  bound := by simp
  once := by simp
  inNumbers := .empty
  increasing := by simp

variable {d e f : Draft} {o : Output} {required : ValueType} {word : String} {position : Nat}

theorem Formed.refl (hd : d.Formed) : d.Matures d := ⟨hd, .refl d, List.suffix_refl _⟩

theorem Matures.trans (h : d.Matures e) (h' : e.Matures f) : d.Matures f :=
  ⟨h'.formed, h.grows.trans h'.grows, h.bindings.trans h'.bindings⟩

/-! ### The stack and the nodes -/

theorem Formed.withStack (hd : d.Formed) {os : List Output} (h : ∀ o ∈ os, d.graph.Produces o) :
    d.Matures { d with stack := os } :=
  ⟨⟨hd.ordered, fun ho => h _ ho, hd.bound, hd.once, ⟨hd.inNumbers.argument, hd.inNumbers.numbered⟩,
    hd.increasing⟩, ⟨.refl _, id⟩, List.suffix_refl _⟩

theorem Formed.push (hd : d.Formed) {os : List Output} (h : ∀ o ∈ os, d.graph.Produces o) :
    d.Matures { d with stack := os ++ d.stack } := by
  refine hd.withStack fun o ho => ?_
  rcases List.mem_append.mp ho with ho | ho
  · exact h o ho
  · exact hd.stack ho

theorem Formed.pushNode (hd : d.Formed) (id : NodeId) : d.Matures (d.pushNode id) := by
  rw [pushNode_eq]
  refine hd.push fun o ho => ?_
  obtain ⟨rfl, hindex⟩ := mem_topOutputs.mp ho
  exact hindex

theorem Formed.addNode {kind : NodeKind} {inputs : List Output} (hd : d.Formed)
    (hk : ∀ index type, kind ≠ .argument index type) (hl : inputs.length = kind.inputArity)
    (hi : ∀ o ∈ inputs, d.graph.Produces o) :
    d.Matures { d with graph := d.graph.add kind inputs } := by
  have grows := hd.ordered.grows_add hl hi
  refine ⟨⟨hd.ordered.add hl hi, fun ho => grows.produces (hd.stack ho), fun hb => ?_, hd.once,
    hd.inNumbers.addNode hk inputs, hd.increasing⟩, ⟨grows, id⟩, List.suffix_refl _⟩
  obtain ⟨hc, index, ins, hn⟩ := hd.bound hb
  exact ⟨hc, index, ins, grows.node hn⟩

theorem Formed.extend {kind : NodeKind} {inputs : List Output} (hd : d.Formed)
    (hk : ∀ index type, kind ≠ .argument index type) (hl : inputs.length = kind.inputArity)
    (hi : ∀ o ∈ inputs, d.graph.Produces o) : d.Matures (d.extend kind inputs) := by
  have hnode := hd.addNode hk hl hi
  rw [← pushNode_add]
  exact hnode.trans (hnode.formed.pushNode d.graph.size)

/-! ### Taking a value -/

theorem Formed.lookup_size (hd : d.Formed) : d.graph.bindings.lookup d.graph.size = none := by
  refine List.lookup_eq_none_iff.mpr fun b hb => ?_
  obtain ⟨-, index, inputs, hn⟩ := hd.bound hb
  exact bne_iff_ne.mpr (Nat.ne_of_gt (Graph.lt_size_of_node? hn))

theorem Formed.assume (hd : d.Formed) (type : ValueType) : d.Matures (d.assume type).2 := by
  have hi : ∀ o ∈ ([] : List Output), d.graph.Produces o := fun _ ho => nomatch ho
  have grows : d.graph.Grows (d.assume type).2.graph := hd.ordered.grows_add rfl hi
  have hlater : ∀ id ∈ d.arguments.toList, id < d.graph.size := by
    intro id hid
    obtain ⟨k, hk⟩ := List.mem_iff_getElem?.mp hid
    obtain ⟨t, inputs, hn⟩ := hd.inNumbers.argument (Array.getElem?_toList.symm.trans hk)
    exact Graph.lt_size_of_node? hn
  refine ⟨⟨hd.ordered.add rfl hi, fun ho => grows.produces (hd.stack ho), fun hb => ?_, hd.once,
    hd.inNumbers.assume type, ?_⟩,
    ⟨grows, fun hk => (getElem?_assume d type).mpr (.inr hk)⟩, List.suffix_refl _⟩
  · obtain ⟨hc, index, ins, hn⟩ := hd.bound hb
    exact ⟨hc, index, ins, grows.node hn⟩
  · simp only [Draft.assume, Array.toList_push]
    refine List.pairwise_append.mpr ⟨hd.increasing, List.pairwise_singleton _ _, ?_⟩
    intro id hid new hnew
    obtain rfl := List.mem_singleton.mp hnew
    exact hlater id hid

theorem Formed.takeTop (hd : d.Formed) (type : ValueType) : d.Matures (d.takeTop type).2 := by
  unfold Draft.takeTop
  cases hs : d.stack with
  | nil => exact hd.assume type
  | cons o rest => exact hd.withStack fun o' ho => hd.stack (hs ▸ List.mem_cons_of_mem o ho)

theorem Formed.accept (hd : d.Formed) (h : d.accept o required word position = .ok e) :
    d.Matures e ∧ e.graph.Produces o := by
  rcases accept_eq_ok h with ⟨rfl, ha⟩ | ⟨hr, hu, ht, rfl⟩
  · exact ⟨hd.refl, ha.produces⟩
  · have ho : d.graph.Produces o := Graph.produces_of_outputType ht
    obtain ⟨hargument, hlookup⟩ := Graph.isUnbound_iff.mp hu
    have hnew : (d.graph.origin o).node ∉ d.graph.bindings.map Prod.fst := by
      intro hmem
      obtain ⟨b, hb, heq⟩ := List.mem_map.mp hmem
      have hne := List.lookup_eq_none_iff.mp hlookup b hb
      exact bne_iff_ne.mp hne heq.symm
    refine ⟨⟨⟨hd.ordered.bind _ _, hd.stack, fun hb => ?_, List.nodup_cons.mpr ⟨hnew, hd.once⟩,
      ⟨hd.inNumbers.argument, hd.inNumbers.numbered⟩, hd.increasing⟩,
      ⟨hd.ordered.grows_bind hu hr, id⟩, List.suffix_cons _ _⟩, ho⟩
    rcases List.mem_cons.mp hb with hb | hb
    · cases hb
      exact ⟨hr, hargument⟩
    · exact hd.bound hb

theorem Formed.pop (hd : d.Formed) (h : pop required word position d = .ok o e) :
    d.Matures e ∧ e.graph.Produces o := by
  obtain ⟨rfl, ha⟩ := pop_eq_ok.mp h
  have htop := hd.takeTop required
  obtain ⟨haccept, hproduces⟩ := htop.formed.accept ha
  exact ⟨htop.trans haccept, hproduces⟩

/-- An argument that is made for a value has the type that is asked for, so that nothing is bound. -/
theorem Formed.pop_of_nil (hd : d.Formed) (hs : d.stack = []) (required : ValueType) (word : String)
    (position : Nat) :
    Draft.pop required word position d = .ok ⟨d.graph.size, 0⟩ (d.assume required).2 := by
  have htop : d.takeTop required = d.assume required := by simp only [Draft.takeTop, hs]
  have hn : (d.assume required).2.graph.node? d.graph.size = _ := Graph.node?_add_size ..
  have htype : (d.assume required).2.graph.outputType ⟨d.graph.size, 0⟩ = .ok required := by
    rw [Graph.outputType_of_argument hn]
    simp [Graph.argumentType, Draft.assume, Graph.add, hd.lookup_size]
  refine pop_eq_ok.mpr ⟨by rw [htop]; rfl, ?_⟩
  rw [htop]
  simp only [Draft.accept, htype, bind, Except.bind, ValueType.compatible_self, if_true]
  rfl

theorem Formed.pop_error {fault : CompileError} (hd : d.Formed)
    (h : Draft.pop required word position d = .error fault e) :
    ∃ o, d.stack = o :: e.stack ∧ e = { d with stack := e.stack } := by
  cases hs : d.stack with
  | nil => cases (hd.pop_of_nil hs required word position).symm.trans h
  | cons o rest =>
    simp only [Draft.pop, Draft.takeTop, hs] at h
    split at h
    · cases h
    · cases h
      exact ⟨o, rfl, rfl⟩

/-- What is bound when a value is popped is an argument that was declared without a type and has not
been bound. -/
theorem Formed.bindings_pop (hd : d.Formed) (h : Draft.pop required word position d = .ok o e) :
    e.graph.bindings = d.graph.bindings ∨ required.isConcrete = true ∧ ∃ id,
      d.graph.isUnbound id = true ∧ e.graph.bindings = (id, required) :: d.graph.bindings := by
  cases hs : d.stack with
  | nil =>
    cases (hd.pop_of_nil hs required word position).symm.trans h
    exact .inl rfl
  | cons top rest =>
    obtain ⟨rfl, ha⟩ := pop_eq_ok.mp h
    simp only [Draft.takeTop, hs] at ha
    rcases accept_eq_ok ha with ⟨rfl, -⟩ | ⟨hr, hu, -, rfl⟩
    · exact .inl rfl
    · exact .inr ⟨hr, _, hu, rfl⟩

theorem keeps_pop (required : ValueType) (word : String) (position : Nat) :
    (pop required word position).Keeps d.Matures fun _ => True := by
  intro s hs
  cases h : pop required word position s with
  | ok o e => exact hs.trans (hs.formed.pop h).1
  | error fault e =>
    obtain ⟨o, ho, he⟩ := hs.formed.pop_error h
    rw [he]
    refine ⟨hs.trans (hs.formed.withStack fun o' ho' => hs.formed.stack ?_), trivial⟩
    exact ho ▸ List.mem_cons_of_mem o ho'

theorem keeps_popAll (types : List ValueType) (word : String) (position : Nat) :
    (popAll types word position).Keeps d.Matures fun _ => True :=
  .mapM (fun type => keeps_pop type word position) types

theorem Formed.popAll {types : List ValueType} {os : List Output} (hd : d.Formed)
    (h : Draft.popAll types word position d = .ok os e) :
    d.Matures e ∧ ∀ o ∈ os, e.graph.Produces o := by
  induction types generalizing d os with
  | nil =>
    cases h
    exact ⟨hd.refl, fun _ ho => nomatch ho⟩
  | cons type types ih =>
    rw [popAll_cons] at h
    obtain ⟨o, d₁, h₁, h⟩ := Action.bind_eq_ok.mp h
    obtain ⟨os, d₂, h₂, h⟩ := Action.bind_eq_ok.mp h
    cases h
    obtain ⟨matures₁, hproduces⟩ := hd.pop h₁
    obtain ⟨matures₂, hall⟩ := ih matures₁.formed h₂
    refine ⟨matures₁.trans matures₂, fun o' ho' => ?_⟩
    rcases List.mem_cons.mp ho' with rfl | ho'
    · exact matures₂.grows.graph.produces hproduces
    · exact hall o' ho'

/-! ### Words -/

theorem keeps_apply (p : Primitive) (position : Nat) :
    (apply p position).Keeps d.Matures fun _ => True := by
  intro s hs
  cases h : apply p position s with
  | ok id e =>
    obtain ⟨os, d₁, hp, -, rfl⟩ := apply_eq_ok.mp h
    obtain ⟨matures, hproduces⟩ := hs.formed.popAll hp
    have hl : os.reverse.length = p.inputArity := by
      rw [List.length_reverse, length_popAll hp, List.length_replicate]
    have hi : ∀ o ∈ os.reverse, d₁.graph.Produces o :=
      fun o ho => hproduces o (List.mem_reverse.mp ho)
    exact hs.trans (matures.trans (matures.formed.extend (by simp) hl hi))
  | error fault e =>
    rcases Action.bind_eq_error.mp h with hp | ⟨os, d₁, hp, h⟩
    · exact (keeps_popAll _ _ _).error hs hp
    · have hl : os.reverse.length = p.inputArity := by
        rw [List.length_reverse, length_popAll hp, List.length_replicate]
      have hplace : place (·.addPrimitive p os.reverse) d₁ = .ok _ _ :=
        place_eq_ok.mpr ⟨_, Graph.addPrimitive_eq_ok.mpr ⟨hl, rfl⟩, rfl, rfl⟩
      cases hplace.symm.trans h

/-- The copy of a body goes on from where its arguments have been taken. -/
theorem Formed.spliced {f : Definition} {arguments results : List Output} {start d : Draft}
    {copies : Array (Option NodeId)} (hs : start.Formed)
    (h : f.Copied arguments start f.graph.nodes.toList copies d) (hf : f.Formed)
    (hl : arguments.length = f.arguments.length) (ha : ∀ o ∈ arguments, start.graph.Produces o)
    (hr : f.outputs.mapM (f.transfer arguments copies) = .ok results) :
    start.Matures { d with stack := results.reverse ++ d.stack } := by
  obtain ⟨ordered, grows, outputs⟩ := h.produces hf hs.ordered hl ha (List.append_nil _).symm
  have hcopied : start.Matures d := by
    refine ⟨⟨ordered, fun ho => ?_, fun hb => ?_, ?_, ⟨fun hk => ?_, fun hn => ?_⟩, ?_⟩,
      ⟨grows, fun hk => by rwa [h.arguments_eq]⟩, h.bindings_eq ▸ List.suffix_refl _⟩
    · exact grows.produces (hs.stack (h.stack ▸ ho))
    · obtain ⟨hc, index, inputs, hn⟩ := hs.bound (h.bindings_eq ▸ hb)
      exact ⟨hc, index, inputs, grows.node hn⟩
    · rw [h.bindings_eq]
      exact hs.once
    · obtain ⟨type, inputs, hn⟩ := hs.inNumbers.argument (h.arguments_eq ▸ hk)
      exact ⟨type, inputs, grows.node hn⟩
    · rw [h.arguments_eq]
      exact hs.inNumbers.numbered (h.node?_argument_iff.mp hn)
    · rw [h.arguments_eq]
      exact hs.increasing
  refine hcopied.trans (hcopied.formed.push fun o ho => ?_)
  obtain ⟨i, hi⟩ := List.mem_iff_getElem?.mp (List.mem_reverse.mp ho)
  obtain ⟨o', ho', ht⟩ := Pointwise.left_of_right (Except.mapM_eq_ok.mp hr) hi
  have hp := hf.outputs (List.mem_of_getElem? ho')
  obtain ⟨o'', ho'', hproduces⟩ := outputs o' hp (by simpa [Graph.size] using hp.lt_size)
  cases ht.symm.trans ho''
  exact hproduces

theorem keeps_inlineInto {f : Definition} (hf : f.Formed) (position : Nat) :
    (f.inlineInto position).Keeps d.Matures fun _ => True := by
  intro s hs
  obtain ⟨signature, hsignature⟩ := hf.exists_signature
  have hcount := (Definition.signature_eq_ok.mp hsignature).1.length_eq
  cases h : f.inlineInto position s with
  | ok u e =>
    obtain ⟨sig, arguments, start, copies, d₁, results, hsig, hp, hc, hr, rfl⟩ :=
      Definition.inlineInto_eq_ok (fun _ hn => hf.ordered.length_of_mem hn) h
    cases hsignature.symm.trans hsig
    obtain ⟨matures, hproduces⟩ := hs.formed.popAll hp
    have hl := (length_popAll hp).trans hcount.symm
    exact hs.trans (matures.trans (matures.formed.spliced hc hf hl hproduces hr))
  | error fault e =>
    have hstart : (Action.ofExcept f.signature : Action Draft Signature) s = .ok signature s :=
      Action.ofExcept_eq_ok.mpr ⟨hsignature, rfl⟩
    cases hp : popAll signature.inputs f.name position s with
    | ok arguments start =>
      obtain ⟨matures, hproduces⟩ := hs.formed.popAll hp
      obtain ⟨e', he'⟩ := hf.exists_inlineInto hsignature hp matures.formed.ordered hproduces
      cases he'.symm.trans h
    | error fault' e' =>
      rw [Definition.inlineInto, Action.bind_of_ok hstart, Action.bind_of_error hp] at h
      cases h
      exact (keeps_popAll _ _ _).error hs hp

/-! ### Runs -/

/-- What one operation makes of a draft, whether or not it succeeds: a node is added that takes outputs
which are there, the outputs of a node or a single output are pushed, a value is popped, a primitive is
applied, or the body of a definition is put in the place of a call. -/
inductive Step (d : Draft) : Draft → Prop
  | addNode {kind : NodeKind} {inputs : List Output} :
      (∀ index type, kind ≠ .argument index type) → inputs.length = kind.inputArity →
      (∀ o ∈ inputs, d.graph.Produces o) → Step d { d with graph := d.graph.add kind inputs }
  | pushNode (id : NodeId) : Step d (d.pushNode id)
  | pushOutput {o : Output} : d.graph.Produces o → Step d (d.pushOutput o)
  | pop (required : ValueType) (word : String) (position : Nat) :
      Step d ((Draft.pop required word position).attempt d).2
  | apply (p : Primitive) (position : Nat) : Step d ((Draft.apply p position).attempt d).2
  | inlineInto {f : Definition} (position : Nat) : f.Formed →
      Step d ((f.inlineInto position).attempt d).2

theorem Step.matures (h : d.Step e) (hd : d.Formed) : d.Matures e := by
  cases h with
  | addNode hk hl hi => exact hd.addNode hk hl hi
  | pushNode id => exact hd.pushNode id
  | @pushOutput o ho =>
    have hone : ∀ o' ∈ [o], d.graph.Produces o' := fun o' ho' => List.mem_singleton.mp ho' ▸ ho
    exact hd.push hone
  | pop required word position => exact (keeps_pop required word position).attempt hd.refl
  | apply p position => exact (keeps_apply p position).attempt hd.refl
  | inlineInto position hf => exact (keeps_inlineInto hf position).attempt hd.refl

theorem matures_of_steps (h : Relation.ReflTransGen Step d e) (hd : d.Formed) : d.Matures e := by
  induction h with
  | refl => exact hd.refl
  | tail _ hstep ih => exact ih.trans (hstep.matures ih.formed)

/-- Along a run of operations in any order, whether or not they succeed, the type of an output stays or
changes from open to concrete, and once it has changed it stays. A value that is popped binds nothing,
or an argument that was declared without a type and is not bound yet; one that does not fit is dropped,
and nothing else happens. The bindings so far stand behind the later ones: no argument is bound twice,
and only arguments that were declared without a type are. The arguments are just the argument nodes, by
number, in the order of their creation, and they keep their numbers. -/
theorem refined_of_steps (hd : Relation.ReflTransGen Step {} d)
    (he : Relation.ReflTransGen Step d e) :
    (∀ o, d.graph.Produces o → ∃ type later, d.graph.outputType o = .ok type ∧
      e.graph.outputType o = .ok later ∧ (later = type ∨ type = .any ∧ later.isConcrete = true)) ∧
    (∀ f, Relation.ReflTransGen Step e f → ∀ o, d.graph.Produces o →
      e.graph.outputType o ≠ d.graph.outputType o →
      f.graph.outputType o = e.graph.outputType o) ∧
    (∀ required word position, match Draft.pop required word position e with
      | .ok _ f => f.graph.bindings = e.graph.bindings ∨ required.isConcrete = true ∧
        ∃ id index inputs, e.graph.node? id = some ⟨.argument index .any, inputs⟩ ∧
          e.graph.bindings.lookup id = none ∧
          f.graph.bindings = (id, required) :: e.graph.bindings
      | .error _ f => ∃ o, e.stack = o :: f.stack ∧ f = { e with stack := f.stack }) ∧
    d.graph.bindings <:+ e.graph.bindings ∧ (e.graph.bindings.map Prod.fst).Nodup ∧
    (∀ id type, (id, type) ∈ e.graph.bindings → type.isConcrete = true ∧
      ∃ index inputs, e.graph.node? id = some ⟨.argument index .any, inputs⟩) ∧
    (∀ (index : Nat) (id : NodeId), e.arguments[index]? = some id ↔
      ∃ type inputs, e.graph.node? id = some ⟨.argument index type, inputs⟩) ∧
    (∀ (index : Nat) (id : NodeId), d.arguments[index]? = some id →
      e.arguments[index]? = some id) ∧
    e.arguments.toList.Pairwise (· < ·) := by
  have formed : d.Formed := (matures_of_steps hd .empty).formed
  have matures := matures_of_steps he formed
  refine ⟨fun o ho => ?_, fun f hf o ho hne => ?_, fun required word position => ?_,
    matures.bindings, matures.formed.once, fun id type hb => matures.formed.bound hb,
    fun index id => ⟨matures.formed.inNumbers.argument, ?_⟩, fun index id =>
    matures.grows.arguments, matures.formed.increasing⟩
  · obtain ⟨type, ht⟩ := formed.ordered.exists_outputType ho
    obtain ⟨later, hl, hr⟩ := matures.grows.graph.type ht
    exact ⟨type, later, ht, hl, hr⟩
  · -- What has changed was open and is concrete now, so that it cannot change any more.
    obtain ⟨type, ht⟩ := formed.ordered.exists_outputType ho
    obtain ⟨later, hl, hr⟩ := matures.grows.graph.type ht
    obtain ⟨latest, hlatest, hr'⟩ := (matures_of_steps hf matures.formed).grows.graph.type hl
    have hconcrete : later ≠ .any := by
      rintro rfl
      rcases hr with rfl | ⟨-, hc⟩
      · exact hne (hl.trans ht.symm)
      · cases hc
    rw [hlatest, hl, hr'.eq_of_ne hconcrete]
  · cases h : Draft.pop required word position e with
    | ok o f =>
      refine (matures.formed.bindings_pop h).imp_right fun ⟨hr, id, hu, hb⟩ => ?_
      obtain ⟨⟨index, inputs, hn⟩, hlookup⟩ := Graph.isUnbound_iff.mp hu
      exact ⟨hr, id, index, inputs, hn, hlookup, hb⟩
    | error fault f => exact matures.formed.pop_error h
  · rintro ⟨type, inputs, hn⟩
    exact matures.formed.inNumbers.numbered hn

def squaring : Definition where
  name := "sq"
  graph.nodes := #[
    ⟨.argument 0 .int32, []⟩,
    ⟨.primitive (.shuffle .dup), [⟨0, 0⟩]⟩,
    ⟨.primitive (.binary .mul .int32), [⟨1, 0⟩, ⟨1, 1⟩]⟩]
  arguments := [0]
  outputs := [⟨2, 0⟩]

theorem formed_squaring : squaring.Formed where
  ordered := by decide +kernel
  argument {index id} h := by
    obtain ⟨rfl, rfl⟩ : index = 0 ∧ id = 0 := by
      cases index with
      | zero => exact ⟨rfl, (Option.some.inj h).symm⟩
      | succ index => cases h
    exact ⟨.int32, [], rfl⟩
  numbered {id index type inputs} hn := by
    have hlt : id < 3 := Graph.lt_size_of_node? hn
    interval_cases id <;> cases hn
    rfl
  outputs {o} ho := by
    obtain rfl := List.mem_singleton.mp ho
    decide +kernel

def doubled : Draft := ((Draft.apply (.shuffle .dup) 0).attempt {}).2

def squared : Draft := ((squaring.inlineInto 1).attempt doubled).2

/-- Squaring one of two copies gives their argument a type, and a string that is asked for then is
refused without a change to it. -/
theorem refined_of_steps_squared : doubled.graph.outputType ⟨1, 0⟩ = .ok .any ∧
    squared.graph.outputType ⟨1, 0⟩ = .ok .int32 ∧
    ((Draft.pop .string "f" 2).attempt squared).1 = .error (.typeMismatch "f" 2 .string .int32) ∧
    ((Draft.pop .string "f" 2).attempt squared).2.graph.outputType ⟨1, 0⟩ = .ok .int32 := by
  have hd : Relation.ReflTransGen Step {} doubled := .single (.apply _ _)
  have he : Relation.ReflTransGen Step doubled squared := .single (.inlineInto 1 formed_squaring)
  have hf : Relation.ReflTransGen Step squared _ := .single (.pop .string "f" 2)
  have hopen : doubled.graph.outputType ⟨1, 0⟩ = .ok .any := by decide +kernel
  have hbound : squared.graph.outputType ⟨1, 0⟩ = .ok .int32 := by decide +kernel
  have ho : doubled.graph.Produces ⟨1, 0⟩ := Graph.produces_of_outputType hopen
  obtain ⟨-, hstays, -⟩ := refined_of_steps hd he
  have hlater := hstays _ hf ⟨1, 0⟩ ho (by simp [hopen, hbound])
  exact ⟨hopen, hbound, by decide +kernel, hlater.trans hbound⟩

end StackEffect.Draft
