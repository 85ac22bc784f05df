import StackEffect.Definition
import StackEffect.Proofs.Draft.Typing
import StackEffect.Proofs.Pointwise

/-!
A body in the place of a call. Its nodes are copied one by one, inputs renamed (`Copied`), and once
its arguments are found nothing else can be missing (`Formed.exists_inlineInto`). Each output of the
body has a copy in the caller whose type is no less definite (`Copied.sound`), so that a sound draft
stays sound (`Sound.inlineInto`).
-/
namespace StackEffect

/-- A finished body whose graph is sound. Its arguments are just the argument nodes, by number. -/
structure Definition.Sound (V : Vocabulary) (f : Definition) : Prop where
  graph : f.graph.Sound V
  argument : ∀ {index id : Nat}, f.arguments[index]? = some id →
    ∃ type inputs, f.graph.node? id = some ⟨.argument index type, inputs⟩
  numbered : ∀ {id index type inputs}, f.graph.node? id = some ⟨.argument index type, inputs⟩ →
    f.arguments[index]? = some id
  outputs : ∀ {o}, o ∈ f.outputs → f.graph.Produces o

/-- A finished body whose nodes take outputs of earlier nodes, of whatever types. Its arguments are
just the argument nodes, by number. -/
structure Definition.Formed (f : Definition) : Prop where
  ordered : f.graph.Ordered
  argument : ∀ {index id : Nat}, f.arguments[index]? = some id →
    ∃ type inputs, f.graph.node? id = some ⟨.argument index type, inputs⟩
  numbered : ∀ {id index type inputs}, f.graph.node? id = some ⟨.argument index type, inputs⟩ →
    f.arguments[index]? = some id
  outputs : ∀ {o}, o ∈ f.outputs → f.graph.Produces o

namespace Definition
variable {V : Vocabulary} {f : Definition}

theorem Sound.formed (hf : f.Sound V) : f.Formed :=
  ⟨hf.graph.ordered, hf.argument, hf.numbered, hf.outputs⟩

theorem Sound.mono {W : Vocabulary} (hf : f.Sound V) (h : ∀ kind, V.Has kind → W.Has kind) :
    f.Sound W := ⟨hf.graph.mono h, hf.argument, hf.numbered, hf.outputs⟩

theorem signature_eq_ok {s : Signature} : f.signature = .ok s ↔
    List.Forall₂ (fun (id : NodeId) type => f.graph.outputType ⟨id, 0⟩ = .ok type)
      f.arguments s.inputs ∧
    List.Forall₂ (fun o type => f.graph.outputType o = .ok type) f.outputs s.outputs := by
  unfold signature
  simp only [Except.bind_eq_ok, Except.mapM_eq_ok]
  constructor
  · rintro ⟨inputs, hi, outputs, ho, h⟩
    cases h
    exact ⟨hi, ho⟩
  · rintro ⟨hi, ho⟩
    exact ⟨_, hi, _, ho, rfl⟩

theorem Formed.produces_argument (hf : f.Formed) {index id : Nat}
    (h : f.arguments[index]? = some id) : f.graph.Produces ⟨id, 0⟩ := by
  obtain ⟨type, inputs, hn⟩ := hf.argument h
  exact Graph.produces_of_node? hn Nat.zero_lt_one

theorem Formed.exists_signature (hf : f.Formed) : ∃ s, f.signature = .ok s := by
  have hi : ∀ id ∈ f.arguments, ∃ type, f.graph.outputType ⟨id, 0⟩ = .ok type := by
    intro id h
    obtain ⟨index, hk⟩ := List.mem_iff_getElem?.mp h
    exact hf.ordered.exists_outputType (hf.produces_argument hk)
  have ho : ∀ o ∈ f.outputs, ∃ type, f.graph.outputType o = .ok type :=
    fun o h => hf.ordered.exists_outputType (hf.outputs h)
  obtain ⟨inputs, hi⟩ := Pointwise.exists_of_forall hi
  obtain ⟨outputs, ho⟩ := Pointwise.exists_of_forall ho
  exact ⟨⟨inputs, outputs⟩, signature_eq_ok.mpr ⟨hi, ho⟩⟩

theorem Sound.exists_signature (hf : f.Sound V) : ∃ s, f.signature = .ok s :=
  hf.formed.exists_signature

/-! ### The copies -/

/-- The nodes of a body that have been copied, their copies, and the caller's draft: it starts as
`start`, where `arguments` stand for the arguments of the body. -/
inductive Copied (f : Definition) (arguments : List Output) (start : Draft) :
    List Node → Array (Option NodeId) → Draft → Prop
  | none : Copied f arguments start [] #[] start
  | argument {nodes copies d index type inputs} : Copied f arguments start nodes copies d →
      Copied f arguments start (nodes ++ [⟨.argument index type, inputs⟩]) (copies.push .none) d
  | node {nodes copies d n inputs} : Copied f arguments start nodes copies d →
      (∀ index type, n.kind ≠ .argument index type) →
      n.inputs.mapM (f.transfer arguments copies) = .ok inputs →
      Copied f arguments start (nodes ++ [n]) (copies.push (some d.graph.size))
        { d with graph := d.graph.add n.kind inputs }

section Copied
variable {arguments : List Output} {start d e : Draft} {nodes : List Node}
  {copies : Array (Option NodeId)}

theorem Copied.length (h : Copied f arguments start nodes copies d) :
    copies.size = nodes.length := by
  induction h with
  | none => rfl
  | argument _ ih => simp [ih]
  | node _ _ _ ih => simp [ih]

theorem Copied.stack (h : Copied f arguments start nodes copies d) : d.stack = start.stack := by
  induction h with
  | none => rfl
  | argument _ ih => exact ih
  | node _ _ _ ih => exact ih

theorem Copied.arguments_eq (h : Copied f arguments start nodes copies d) :
    d.arguments = start.arguments := by
  induction h with
  | none => rfl
  | argument _ ih => exact ih
  | node _ _ _ ih => exact ih

theorem Copied.bindings_eq (h : Copied f arguments start nodes copies d) :
    d.graph.bindings = start.graph.bindings := by
  induction h with
  | none => rfl
  | argument _ ih => exact ih
  | node _ _ _ ih => exact ih

theorem Copied.copyNode {n : Node} {copies' : Array (Option NodeId)}
    (h : Copied f arguments start nodes copies d) (hl : n.inputs.length = n.inputArity)
    (hn : f.copyNode arguments copies n d = .ok copies' e) :
    Copied f arguments start (nodes ++ [n]) copies' e := by
  unfold Definition.copyNode at hn
  obtain ⟨inputs, d₁, h₁, hn⟩ := Action.bind_eq_ok.mp hn
  obtain ⟨hi, rfl⟩ := Action.ofExcept_eq_ok.mp h₁
  obtain ⟨kind, ins⟩ := n
  cases kind with
  | argument index type =>
    cases hn
    exact h.argument
  | literal value =>
    obtain ⟨copy, d₂, hc, hn⟩ := Action.bind_eq_ok.mp hn
    obtain ⟨id, hins, rfl⟩ := Action.map_eq_ok.mp hc
    obtain ⟨g, hg, rfl, rfl⟩ := Draft.insert_eq_ok.mp hins
    cases hg
    cases hn
    obtain rfl : ins = [] := List.eq_nil_of_length_eq_zero hl
    cases hi
    exact h.node (n := ⟨.literal value, []⟩) (by simp) rfl
  | primitive p =>
    obtain ⟨copy, d₂, hc, hn⟩ := Action.bind_eq_ok.mp hn
    obtain ⟨id, hins, rfl⟩ := Action.map_eq_ok.mp hc
    obtain ⟨g, hg, rfl, rfl⟩ := Draft.insert_eq_ok.mp hins
    obtain ⟨-, rfl⟩ := Graph.addPrimitive_eq_ok.mp hg
    cases hn
    exact h.node (n := ⟨.primitive p, ins⟩) (by simp) hi
  | call callee =>
    obtain ⟨copy, d₂, hc, hn⟩ := Action.bind_eq_ok.mp hn
    obtain ⟨id, hins, rfl⟩ := Action.map_eq_ok.mp hc
    obtain ⟨g, hg, rfl, rfl⟩ := Draft.insert_eq_ok.mp hins
    obtain ⟨-, rfl⟩ := Graph.addCall_eq_ok.mp hg
    cases hn
    exact h.node (n := ⟨.call callee, ins⟩) (by simp) hi

theorem Copied.foldlM {more : List Node} {copies' : Array (Option NodeId)}
    (h : Copied f arguments start nodes copies d)
    (hl : ∀ n ∈ more, n.inputs.length = n.inputArity)
    (hm : more.foldlM (f.copyNode arguments) copies d = .ok copies' e) :
    Copied f arguments start (nodes ++ more) copies' e := by
  induction more generalizing nodes copies d with
  | nil =>
    cases hm
    simpa using h
  | cons n more ih =>
    rw [List.foldlM_cons] at hm
    obtain ⟨copies₁, d₁, h₁, hm⟩ := Action.bind_eq_ok.mp hm
    have hn := h.copyNode (hl n List.mem_cons_self) h₁
    simpa using ih hn (fun n' hn' => hl n' (List.mem_cons_of_mem n hn')) hm

theorem pushAll_eq_ok {outputs : List Output} {u : Unit}
    (h : (outputs.forM fun output => do
      let output ← Action.ofExcept (f.transfer arguments copies output)
      modify (Draft.pushOutput · output)) d = .ok u e) :
    ∃ results, outputs.mapM (f.transfer arguments copies) = .ok results ∧
      e = { d with stack := results.reverse ++ d.stack } := by
  induction outputs generalizing d with
  | nil =>
    cases h
    exact ⟨[], rfl, rfl⟩
  | cons o outputs ih =>
    rw [Action.forM_cons] at h
    obtain ⟨_, d₁, h₁, h⟩ := Action.bind_eq_ok.mp h
    obtain ⟨o', d₂, h₂, h₁⟩ := Action.bind_eq_ok.mp h₁
    obtain ⟨ho, rfl⟩ := Action.ofExcept_eq_ok.mp h₂
    cases h₁
    obtain ⟨results, hr, rfl⟩ := ih h
    refine ⟨o' :: results, ?_, by simp [Draft.pushOutput]⟩
    rw [Except.mapM_eq_ok] at hr ⊢
    exact .cons ho hr

/-- Putting a body in the place of a call takes the arguments, copies the nodes and pushes what the
outputs have become. -/
theorem inlineInto_eq_ok {position : Nat} {u : Unit}
    (hl : ∀ n ∈ f.graph.nodes.toList, n.inputs.length = n.inputArity)
    (h : f.inlineInto position d = .ok u e) :
    ∃ s arguments start copies d₁ results, f.signature = .ok s ∧
      Draft.popAll s.inputs f.name position d = .ok arguments start ∧
      Copied f arguments start f.graph.nodes.toList copies d₁ ∧
      f.outputs.mapM (f.transfer arguments copies) = .ok results ∧
      e = { d₁ with stack := results.reverse ++ d₁.stack } := by
  unfold inlineInto at h
  obtain ⟨s, d', h', h⟩ := Action.bind_eq_ok.mp h
  obtain ⟨hs, rfl⟩ := Action.ofExcept_eq_ok.mp h'
  obtain ⟨arguments, start, ha, h⟩ := Action.bind_eq_ok.mp h
  obtain ⟨copies, d₁, hc, h⟩ := Action.bind_eq_ok.mp h
  obtain ⟨results, hr, rfl⟩ := pushAll_eq_ok h
  exact ⟨s, arguments, start, copies, d₁, results, hs, ha, Copied.none.foldlM hl hc, hr, rfl⟩

/-! ### Outputs of the copies -/

theorem transfer_eq_of_lt {c : Option NodeId} {o : Output} (ho : o.node < copies.size) :
    f.transfer arguments (copies.push c) o = f.transfer arguments copies o := by
  have hne : o.node ≠ copies.size := Nat.ne_of_lt ho
  simp only [transfer, Array.getElem?_push, if_neg hne]

theorem transfer_argument {o : Output} {index : Nat} {type : ValueType} {inputs : List Output}
    (hn : f.graph.node? o.node = some ⟨.argument index type, inputs⟩) {o' : Output}
    (h : arguments[index]? = some o') : f.transfer arguments copies o = .ok o' := by
  simp [transfer, hn, h]

theorem transfer_copy {o : Output} {n : Node} {id : NodeId} (hn : f.graph.node? o.node = some n)
    (hk : ∀ index type, n.kind ≠ .argument index type) (h : copies[o.node]? = some (some id)) :
    f.transfer arguments copies o = .ok ⟨id, o.index⟩ := by
  unfold transfer
  simp only [hn, Option.map_some]
  cases hkind : n.kind with
  | argument index type => exact absurd hkind (hk index type)
  | literal value => simp [h]
  | primitive p => simp [h]
  | call callee => simp [h]

theorem Copied.node?_argument_iff (h : Copied f arguments start nodes copies d) {id index : Nat}
    {type : ValueType} {inputs : List Output} :
    d.graph.node? id = some ⟨.argument index type, inputs⟩ ↔
      start.graph.node? id = some ⟨.argument index type, inputs⟩ := by
  induction h with
  | none => rfl
  | argument _ ih => exact ih
  | @node nodes copies d n inputs' _ hk _ ih =>
    rw [Graph.node?_add_eq_some, ih, or_iff_right]
    rintro ⟨-, hn⟩
    injection hn with hkind
    exact hk index type hkind.symm

theorem Copied.produces {rest : List Node} (h : Copied f arguments start nodes copies d)
    (hf : f.Formed) (hs : start.graph.Ordered) (hl : arguments.length = f.arguments.length)
    (ha : ∀ o ∈ arguments, start.graph.Produces o) (hnodes : f.graph.nodes.toList = nodes ++ rest) :
    d.graph.Ordered ∧ start.graph.Grows d.graph ∧ ∀ o, f.graph.Produces o → o.node < nodes.length →
      ∃ o', f.transfer arguments copies o = .ok o' ∧ d.graph.Produces o' := by
  induction h generalizing rest with
  | none => exact ⟨hs, .refl _, fun o _ ho => absurd ho (Nat.not_lt_zero _)⟩
  | @argument nodes copies d index type inputs h ih =>
    rw [List.append_assoc] at hnodes
    obtain ⟨ordered, grows, outputs⟩ := ih hnodes
    have hn : f.graph.node? nodes.length = some ⟨.argument index type, inputs⟩ :=
      Graph.node?_of_toList hnodes
    refine ⟨ordered, grows, fun o ho hlt => ?_⟩
    rw [List.length_append, List.length_singleton] at hlt
    rcases Nat.lt_succ_iff_lt_or_eq.mp hlt with hlt | heq
    · rw [transfer_eq_of_lt (h.length ▸ hlt)]
      exact outputs o ho hlt
    · rw [← heq] at hn
      have hindex := (List.getElem?_eq_some_iff.mp (hf.numbered hn)).1
      have ho' := List.getElem?_eq_getElem (hl ▸ hindex)
      exact ⟨_, transfer_argument hn ho', grows.produces (ha _ (List.mem_of_getElem? ho'))⟩
  | @node nodes copies d n inputs h hk hi ih =>
    rw [List.append_assoc] at hnodes
    obtain ⟨ordered, grows, outputs⟩ := ih hnodes
    have hn : f.graph.node? nodes.length = some n := Graph.node?_of_toList hnodes
    have hinputs : ∀ o ∈ inputs, d.graph.Produces o := by
      intro o ho
      obtain ⟨i, hi'⟩ := List.mem_iff_getElem?.mp ho
      obtain ⟨s, hs, ht⟩ := Pointwise.left_of_right (Except.mapM_eq_ok.mp hi) hi'
      have hmem := List.mem_of_getElem? hs
      obtain ⟨o', ho', hproduces⟩ :=
        outputs s (hf.ordered.produces hn hmem) (hf.ordered.earlier hn hmem)
      cases ht.symm.trans ho'
      exact hproduces
    have hlength : inputs.length = n.kind.inputArity :=
      (Except.mapM_eq_ok.mp hi).length_eq.symm.trans (hf.ordered.length hn)
    have grows' := ordered.grows_add hlength hinputs
    refine ⟨ordered.add hlength hinputs, grows.trans grows', fun o ho hlt => ?_⟩
    rw [List.length_append, List.length_singleton] at hlt
    rcases Nat.lt_succ_iff_lt_or_eq.mp hlt with hlt | heq
    · rw [transfer_eq_of_lt (h.length ▸ hlt)]
      obtain ⟨o', ho', hproduces⟩ := outputs o ho hlt
      exact ⟨o', ho', grows'.produces hproduces⟩
    · rw [← heq] at hn
      have hc : (copies.push (some d.graph.size))[o.node]? = some (some d.graph.size) := by
        rw [Array.getElem?_push, if_pos (heq.trans h.length.symm)]
      obtain ⟨_, hn', hindex⟩ := ho.exists_node
      cases hn.symm.trans hn'
      exact ⟨_, transfer_copy hn hk hc, Graph.produces_of_node? (Graph.node?_add_size ..) hindex⟩

/-! ### Nothing but the arguments can be missing -/

theorem Copied.exists_transfers {rest : List Node} {os : List Output}
    (h : Copied f arguments start nodes copies d) (hf : f.Formed) (hs : start.graph.Ordered)
    (hl : arguments.length = f.arguments.length) (ha : ∀ o ∈ arguments, start.graph.Produces o)
    (hnodes : f.graph.nodes.toList = nodes ++ rest)
    (hos : ∀ o ∈ os, f.graph.Produces o ∧ o.node < nodes.length) :
    ∃ results, os.mapM (f.transfer arguments copies) = .ok results := by
  obtain ⟨-, -, outputs⟩ := h.produces hf hs hl ha hnodes
  have hall : ∀ o ∈ os, ∃ o', f.transfer arguments copies o = .ok o' := by
    intro o ho
    obtain ⟨o', ho', -⟩ := outputs o (hos o ho).1 (hos o ho).2
    exact ⟨o', ho'⟩
  obtain ⟨results, hr⟩ := Pointwise.exists_of_forall hall
  exact ⟨results, Except.mapM_eq_ok.mpr hr⟩

theorem exists_copyNode {n : Node} {inputs : List Output} (d : Draft)
    (hl : n.inputs.length = n.inputArity)
    (hi : n.inputs.mapM (f.transfer arguments copies) = .ok inputs) :
    ∃ copies' e, f.copyNode arguments copies n d = .ok copies' e := by
  have hlength : inputs.length = n.inputArity :=
    (Except.mapM_eq_ok.mp hi).length_eq.symm.trans hl
  unfold copyNode
  simp only [hi, Action.bind_apply, Action.ofExcept_ok]
  obtain ⟨kind, ins⟩ := n
  cases kind with
  | argument index type => exact ⟨_, _, rfl⟩
  | literal value => exact ⟨_, _, rfl⟩
  | primitive p =>
    have hadd := Graph.addPrimitive_eq_ok.mpr ⟨hlength, (rfl : d.graph.add (.primitive p) inputs = _)⟩
    have hinsert : Draft.insert (·.addPrimitive p inputs) d = .ok _ _ :=
      Draft.insert_eq_ok.mpr ⟨_, hadd, rfl, rfl⟩
    exact ⟨_, _, Action.bind_of_ok (Action.map_eq_ok.mpr ⟨_, hinsert, rfl⟩) _⟩
  | call callee =>
    have hadd := Graph.addCall_eq_ok.mpr ⟨hlength, (rfl : d.graph.add (.call callee) inputs = _)⟩
    have hinsert : Draft.insert (·.addCall callee inputs) d = .ok _ _ :=
      Draft.insert_eq_ok.mpr ⟨_, hadd, rfl, rfl⟩
    exact ⟨_, _, Action.bind_of_ok (Action.map_eq_ok.mpr ⟨_, hinsert, rfl⟩) _⟩

theorem Copied.exists_foldlM {rest : List Node} (h : Copied f arguments start nodes copies d)
    (hf : f.Formed) (hs : start.graph.Ordered) (hl : arguments.length = f.arguments.length)
    (ha : ∀ o ∈ arguments, start.graph.Produces o) (hnodes : f.graph.nodes.toList = nodes ++ rest) :
    ∃ copies' e, rest.foldlM (f.copyNode arguments) copies d = .ok copies' e := by
  induction rest generalizing nodes copies d with
  | nil => exact ⟨copies, d, rfl⟩
  | cons n rest ih =>
    have hn : f.graph.node? nodes.length = some n := Graph.node?_of_toList hnodes
    obtain ⟨inputs, hi⟩ := h.exists_transfers hf hs hl ha hnodes fun o ho =>
      ⟨hf.ordered.produces hn ho, hf.ordered.earlier hn ho⟩
    have hcount := hf.ordered.length hn
    obtain ⟨copies₁, d₁, h₁⟩ := exists_copyNode d hcount hi
    obtain ⟨copies₂, d₂, h₂⟩ := ih (h.copyNode hcount h₁) (by simpa using hnodes)
    exact ⟨copies₂, d₂, by rw [List.foldlM_cons, Action.bind_of_ok h₁, h₂]⟩

theorem exists_pushAll {outputs results : List Output} (d : Draft)
    (h : outputs.mapM (f.transfer arguments copies) = .ok results) :
    ∃ e, (outputs.forM fun output => do
      let output ← Action.ofExcept (f.transfer arguments copies output)
      modify (Draft.pushOutput · output)) d = .ok () e := by
  induction outputs generalizing d results with
  | nil => exact ⟨d, rfl⟩
  | cons o outputs ih =>
    obtain ⟨o', ho, h⟩ := Except.bind_eq_ok.mp (List.mapM_cons.symm.trans h)
    obtain ⟨results, hr, -⟩ := Except.bind_eq_ok.mp h
    obtain ⟨e, he⟩ := ih (d.pushOutput o') hr
    refine ⟨e, ?_⟩
    rw [Action.forM_cons, Action.bind_apply]
    simpa only [ho, Action.bind_apply, Action.ofExcept_ok, Action.modify_apply] using he

theorem Formed.exists_inlineInto {s : Signature} {position : Nat} (hf : f.Formed)
    (hs : f.signature = .ok s) (hp : Draft.popAll s.inputs f.name position d = .ok arguments start)
    (hstart : start.graph.Ordered) (ha : ∀ o ∈ arguments, start.graph.Produces o) :
    ∃ e, f.inlineInto position d = .ok () e := by
  have hl : arguments.length = f.arguments.length :=
    (Draft.length_popAll hp).trans (signature_eq_ok.mp hs).1.length_eq.symm
  have hnodes : f.graph.nodes.toList = [] ++ f.graph.nodes.toList := rfl
  obtain ⟨copies, d₁, hc⟩ := Copied.none.exists_foldlM hf hstart hl ha hnodes
  have hcopied := Copied.none.foldlM (fun _ hn => hf.ordered.length_of_mem hn) hc
  obtain ⟨results, hr⟩ := hcopied.exists_transfers hf hstart hl ha (List.append_nil _).symm
    fun o ho => ⟨hf.outputs ho, by simpa [Graph.size] using (hf.outputs ho).lt_size⟩
  obtain ⟨e, he⟩ := exists_pushAll d₁ hr
  refine ⟨e, ?_⟩
  rw [inlineInto, Action.bind_of_ok (Action.ofExcept_eq_ok.mpr ⟨hs, rfl⟩), Action.bind_of_ok hp,
    Action.bind_of_ok hc, he]

/-! ### Types of the copies -/

theorem outputType_copy {V : Vocabulary} {g : Graph} {n : Node} {inputs : List Output}
    (hf : f.Sound V) (hg : (g.add n.kind inputs).Ordered)
    {o : Output} (hn : f.graph.node? o.node = some n) (ho : o.index < n.outputArity)
    (hk : ∀ index type, n.kind ≠ .argument index type)
    (hi : List.Forall₂ (fun s s' => ∀ type, f.graph.outputType s = .ok type →
      (g.add n.kind inputs).Accepts type s') n.inputs inputs)
    {type : ValueType} (ht : f.graph.outputType o = .ok type) :
    (g.add n.kind inputs).Accepts type ⟨g.size, o.index⟩ := by
  have hfo := Graph.produces_of_outputType ht
  have hnew : (g.add n.kind inputs).node? g.size = some ⟨n.kind, inputs⟩ :=
    Graph.node?_add_size ..
  have hgo : (g.add n.kind inputs).Produces ⟨g.size, o.index⟩ := Graph.produces_of_node? hnew ho
  cases hr : f.graph.repeated? o with
  | some s =>
    rw [hf.graph.ordered.outputType_of_repeated hfo hr] at ht
    rw [Graph.repeated?_of_node? hn, Graph.repeated?_eq_bind] at hr
    obtain ⟨place, hplace, hs⟩ := Option.bind_eq_some_iff.mp hr
    obtain ⟨s', hs', accepts⟩ := Pointwise.right_of_left hi hs
    have hr' : (g.add n.kind inputs).repeated? ⟨g.size, o.index⟩ = some s' := by
      rw [Graph.repeated?_of_node? hnew, Graph.repeated?_eq_bind, hplace]
      exact hs'
    obtain ⟨actual, ha, hc⟩ := accepts type ht
    exact ⟨actual, (hg.outputType_of_repeated hgo hr').trans ha, hc⟩
  | none =>
    have hr' : (g.add n.kind inputs).repeated? ⟨g.size, o.index⟩ = none := by
      rw [Graph.repeated?_of_node? hn, Graph.repeated?_eq_bind] at hr
      rw [Graph.repeated?_of_node? hnew, Graph.repeated?_eq_bind]
      cases hplace : Graph.repeatedPlace? n.kind o.index with
      | none => rfl
      | some place =>
        rw [hplace, Option.bind_some] at hr
        rcases Pointwise.getElem? hi place with ⟨-, h⟩ | ⟨s, s', h, -⟩
        · exact h
        · simp [hr] at h
    rw [Graph.outputType_of_source hfo hr, Graph.producedType?_of_node? hn] at ht
    refine ⟨type, ?_, ValueType.compatible_self type⟩
    rw [Graph.outputType_of_source hgo hr', Graph.producedType?_of_node? hnew]
    cases hkind : n.kind with
    | argument index declared => exact absurd hkind (hk index declared)
    | literal value => simpa [hkind] using ht
    | primitive p => simpa [hkind] using ht
    | call callee => simpa [hkind] using ht

/-- Every output whose node has been copied has a copy, of a type that will do in its place. -/
theorem Copied.sound {types : List ValueType} {rest : List Node}
    (h : Copied f arguments start nodes copies d) (hf : f.Sound V) (hs : start.Sound V)
    (htypes : List.Forall₂ (fun (id : NodeId) type => f.graph.outputType ⟨id, 0⟩ = .ok type)
      f.arguments types)
    (ha : List.Forall₂ start.graph.Accepts types arguments)
    (hnodes : f.graph.nodes.toList = nodes ++ rest) :
    d.Sound V ∧ start.Grows d ∧ ∀ o, f.graph.Produces o → o.node < nodes.length →
      ∃ o', f.transfer arguments copies o = .ok o' ∧
        ∀ type, f.graph.outputType o = .ok type → d.graph.Accepts type o' := by
  induction h generalizing rest with
  | none => exact ⟨hs, .refl _, fun o _ ho => absurd ho (Nat.not_lt_zero _)⟩
  | @argument nodes copies d index type inputs h ih =>
    rw [List.append_assoc] at hnodes
    obtain ⟨sound, grows, outputs⟩ := ih hnodes
    have hn : f.graph.node? nodes.length = some ⟨.argument index type, inputs⟩ :=
      Graph.node?_of_toList hnodes
    refine ⟨sound, grows, fun o ho hlt => ?_⟩
    rw [List.length_append, List.length_singleton] at hlt
    rcases Nat.lt_succ_iff_lt_or_eq.mp hlt with hlt | heq
    · rw [transfer_eq_of_lt (h.length ▸ hlt)]
      exact outputs o ho hlt
    · rw [← heq] at hn
      obtain ⟨t, ht, hto⟩ := Pointwise.right_of_left htypes (hf.numbered hn)
      obtain ⟨o', ho', accepts⟩ := Pointwise.right_of_left ha ht
      refine ⟨o', transfer_argument hn ho', fun u hu => ?_⟩
      obtain ⟨_, hn', hi⟩ := ho.exists_node
      cases hn.symm.trans hn'
      have hz : o = ⟨o.node, 0⟩ := by
        cases o
        simp_all [Node.outputArity, NodeKind.outputArity]
      rw [hz, hto] at hu
      cases hu
      exact accepts.grow grows.graph
  | @node nodes copies d n inputs h hk hi ih =>
    rw [List.append_assoc] at hnodes
    obtain ⟨sound, grows, outputs⟩ := ih hnodes
    have hn : f.graph.node? nodes.length = some n := Graph.node?_of_toList hnodes
    have hcopy : List.Forall₂ (fun s s' => ∀ type, f.graph.outputType s = .ok type →
        d.graph.Accepts type s') n.inputs inputs := by
      refine (Pointwise.with_mem (Except.mapM_eq_ok.mp hi)).imp fun s s' hboth => ?_
      obtain ⟨hmem, hs'⟩ := hboth
      obtain ⟨s'', hs'', accepts⟩ :=
        outputs s (hf.graph.ordered.produces hn hmem) (hf.graph.ordered.earlier hn hmem)
      cases hs'.symm.trans hs''
      exact accepts
    have hdemands : List.Forall₂ d.graph.Accepts n.kind.demands inputs :=
      Pointwise.comp (hf.graph.typed hn) hcopy fun _ _ _ => Graph.Accepts.trans
    obtain ⟨sound', grows'⟩ := sound.addNode (hf.graph.words hn) hk hdemands
    refine ⟨sound', grows.trans grows', fun o ho hlt => ?_⟩
    rw [List.length_append, List.length_singleton] at hlt
    rcases Nat.lt_succ_iff_lt_or_eq.mp hlt with hlt | heq
    · rw [transfer_eq_of_lt (h.length ▸ hlt)]
      obtain ⟨o', ho', accepts⟩ := outputs o ho hlt
      exact ⟨o', ho', fun u hu => (accepts u hu).grow grows'.graph⟩
    · rw [← heq] at hn
      have hc : (copies.push (some d.graph.size))[o.node]? = some (some d.graph.size) := by
        rw [Array.getElem?_push, if_pos (heq.trans h.length.symm)]
      refine ⟨_, transfer_copy hn hk hc, fun u hu => ?_⟩
      obtain ⟨_, hn', hindex⟩ := ho.exists_node
      cases hn.symm.trans hn'
      exact outputType_copy hf sound'.graph.ordered hn hindex hk
        (hcopy.imp fun _ _ h t ht => (h t ht).grow grows'.graph) hu

end Copied

theorem Sound.exists_inlineInto {d start : Draft} {s : Signature} {arguments : List Output}
    {position : Nat} (hf : f.Sound V) (hd : d.Sound V) (hs : f.signature = .ok s)
    (hp : Draft.popAll s.inputs f.name position d = .ok arguments start) :
    ∃ e, f.inlineInto position d = .ok () e := by
  obtain ⟨sound, -, accepts⟩ := hd.popAll hp
  exact hf.formed.exists_inlineInto hs hp sound.graph.ordered
    (Graph.produces_of_accepts_all accepts)

/-- A call that is replaced by the body of a sound definition leaves a sound draft. -/
theorem Sound.inlineInto {start d : Draft} {position : Nat} {u : Unit} (hf : f.Sound V)
    (hs : start.Sound V) (h : f.inlineInto position start = .ok u d) :
    d.Sound V ∧ start.Grows d := by
  obtain ⟨s, arguments, d₁, copies, d₂, results, hsig, hpop, hc, hr, rfl⟩ :=
    inlineInto_eq_ok (fun _ hn => hf.graph.ordered.length_of_mem hn) h
  obtain ⟨sound₁, grows₁, accepts⟩ := hs.popAll hpop
  obtain ⟨sound₂, grows₂, outputs⟩ := hc.sound hf sound₁ (signature_eq_ok.mp hsig).1 accepts
    (List.append_nil _).symm
  refine ⟨⟨sound₂.graph, fun ho => ?_, sound₂.argument, sound₂.numbered⟩,
    (grows₁.trans grows₂).graph, (grows₁.trans grows₂).arguments⟩
  rcases List.mem_append.mp ho with ho | ho
  · obtain ⟨i, hi⟩ := List.mem_iff_getElem?.mp (List.mem_reverse.mp ho)
    obtain ⟨o', ho', ht⟩ := Pointwise.left_of_right (Except.mapM_eq_ok.mp hr) hi
    have hp := hf.outputs (List.mem_of_getElem? ho')
    obtain ⟨o'', ho'', accepts'⟩ := outputs o' hp (by simpa [Graph.size] using hp.lt_size)
    cases ht.symm.trans ho''
    obtain ⟨type, htype⟩ := hf.graph.ordered.exists_outputType hp
    exact (accepts' type htype).produces
  · exact sound₂.stack ho

end Definition
end StackEffect
