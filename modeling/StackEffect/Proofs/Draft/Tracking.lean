import StackEffect.Proofs.Definition.Meaning

/-!
Drafts and runtime stacks. While a body is read, its draft says where the values of the runtime stack
come from: those of the draft's stack lie on what the body has not yet taken of the initial stack
(`Tracks`). Whatever is popped at compile time is what lies on top at run time (`Tracks.popAll`), and
a new node pushes just its values (`Tracks.extend`, `Tracks.splice`).
-/
namespace StackEffect.Draft

/-- Evaluating the nodes of the draft with the values of `stack` as arguments gives `v`; `current` is
the stack that executing the body up to here leaves, and `out` what has been printed then. -/
structure Tracks (calls : Calls) (stack : List Value) (before : String) (d : Draft) (v : Valuation)
    (current : List Value) (out : String) : Prop where
  evaluated : d.graph.evaluate calls stack before = .ok v out
  size : v.size = d.graph.size
  stack : ∃ top, v.Reads d.stack top ∧ current = top ++ stack.drop d.arguments.size

section Tracks
variable {calls : Calls} {stack : List Value} {before out : String} {d e : Draft} {v : Valuation}
  {current : List Value}

theorem Tracks.empty (calls : Calls) (stack : List Value) (before : String) :
    Tracks calls stack before {} #[] stack before where
  evaluated := rfl
  size := rfl
  stack := ⟨[], .nil, rfl⟩

theorem Tracks.length (h : d.Tracks calls stack before v current out) :
    current.length = d.stack.length + (stack.length - d.arguments.size) := by
  obtain ⟨top, hreads, rfl⟩ := h.stack
  rw [List.length_append, hreads.length_eq, List.length_drop]

theorem Tracks.current_eq (h : d.Tracks calls stack before v current out) :
    current = (d.contents.filterMap v.value?).reverse ++ stack.drop d.arguments.size := by
  obtain ⟨top, hreads, rfl⟩ := h.stack
  have hresults : v.Reads d.contents top.reverse := List.forall₂_reverse_iff.mpr hreads
  rw [hresults.filterMap_eq, List.reverse_reverse]

theorem Tracks.of_eq (h : d.Tracks calls stack before v current out)
    (hnodes : e.graph.nodes = d.graph.nodes) (hstack : e.stack = d.stack)
    (harguments : e.arguments = d.arguments) : e.Tracks calls stack before v current out where
  evaluated := by simpa only [Graph.evaluate, hnodes] using h.evaluated
  size := by simpa only [Graph.size, hnodes] using h.size
  stack := by simpa only [hstack, harguments] using h.stack

/-! ### Taking values -/

variable {required : ValueType} {types : List ValueType} {word : String} {position : Nat}
  {o : Output} {os : List Output} {x : Value} {values rest : List Value}

/-- Values that are known stay known. -/
abbrev Keeps (v v' : Valuation) : Prop := ∀ {o x}, v.value? o = some x → v'.value? o = some x

theorem Tracks.takeTop (h : d.Tracks calls stack before v (x :: rest) out) (type : ValueType) :
    ∃ v', (d.takeTop type).2.Tracks calls stack before v' rest out ∧
      v'.value? (d.takeTop type).1 = some x ∧ Keeps v v' := by
  obtain ⟨top, hreads, hcurrent⟩ := h.stack
  unfold Draft.takeTop
  cases hs : d.stack with
  | cons o os =>
    rw [hs] at hreads
    cases hreads with
    | cons hx hreads =>
      cases hcurrent
      exact ⟨v, ⟨h.evaluated, h.size, _, hreads, rfl⟩, hx, id⟩
  | nil =>
    rw [hs] at hreads
    cases hreads
    rw [List.nil_append] at hcurrent
    have hlt : d.arguments.size < stack.length := by
      have hl := congrArg List.length hcurrent
      simp only [List.length_cons, List.length_drop] at hl
      omega
    rw [List.drop_eq_getElem_cons hlt] at hcurrent
    cases hcurrent
    refine ⟨v.add [stack[d.arguments.size]], ⟨?_, ?_, [], ?_, ?_⟩, ?_, ?_⟩
    · simp only [assume, Graph.evaluate_add, Action.bind_of_ok h.evaluated, Node.eval,
        NodeKind.eval, List.getElem?_eq_getElem hlt]
      rfl
    · simp [assume, h.size]
    · simpa only [assume, hs] using .nil
    · simp [assume]
    · simp only [assume, ← h.size, Table.value?_add_size]
      rfl
    · exact Table.value?_add_of_some _

theorem Tracks.pop (h : d.Tracks calls stack before v (x :: rest) out)
    (hp : Draft.pop required word position d = .ok o e) :
    ∃ v', e.Tracks calls stack before v' rest out ∧ v'.value? o = some x ∧ Keeps v v' := by
  obtain ⟨rfl, ha⟩ := pop_eq_ok.mp hp
  obtain ⟨v', htracks, hx, hkeeps⟩ := h.takeTop required
  refine ⟨v', ?_, hx, hkeeps⟩
  rcases accept_eq_ok ha with ⟨rfl, -⟩ | ⟨-, -, -, rfl⟩
  · exact htracks
  · exact htracks.of_eq rfl rfl rfl

/-- What is popped while the body is read has the values that lie on top of the runtime stack. -/
theorem Tracks.popAll (h : d.Tracks calls stack before v (values ++ rest) out)
    (hl : values.length = types.length)
    (hp : Draft.popAll types word position d = .ok os e) :
    ∃ v', e.Tracks calls stack before v' rest out ∧ v'.Reads os values ∧ Keeps v v' := by
  induction types generalizing d v os values with
  | nil =>
    cases hp
    obtain rfl := List.eq_nil_of_length_eq_zero hl
    exact ⟨v, h, .nil, id⟩
  | cons type types ih =>
    rw [popAll_cons] at hp
    obtain ⟨o, d₁, h₁, hp⟩ := Action.bind_eq_ok.mp hp
    obtain ⟨os, d₂, h₂, hp⟩ := Action.bind_eq_ok.mp hp
    cases hp
    cases values with
    | nil => contradiction
    | cons x values =>
      obtain ⟨v₁, htracks₁, hx, hkeeps₁⟩ := h.pop h₁
      obtain ⟨v₂, htracks₂, hreads, hkeeps₂⟩ := ih htracks₁ (Nat.succ.inj hl) h₂
      exact ⟨v₂, htracks₂, .cons (hkeeps₂ hx) hreads, fun hy => hkeeps₂ (hkeeps₁ hy)⟩

theorem length_stack_pop (hp : Draft.pop required word position d = .ok o e) :
    d.arguments.size ≤ e.arguments.size ∧
      1 + e.stack.length + d.arguments.size = d.stack.length + e.arguments.size := by
  obtain ⟨-, ha⟩ := pop_eq_ok.mp hp
  have hlengths : e.stack = (d.takeTop required).2.stack ∧
      e.arguments = (d.takeTop required).2.arguments := by
    rcases accept_eq_ok ha with ⟨rfl, -⟩ | ⟨-, -, -, rfl⟩
    · exact ⟨rfl, rfl⟩
    · exact ⟨rfl, rfl⟩
  rw [hlengths.1, hlengths.2]
  unfold Draft.takeTop
  cases hs : d.stack with
  | cons o os => simp [Nat.add_comm]
  | nil => simp [assume, hs, Nat.add_comm]

theorem length_stack_popAll (hp : Draft.popAll types word position d = .ok os e) :
    d.arguments.size ≤ e.arguments.size ∧
      types.length + e.stack.length + d.arguments.size = d.stack.length + e.arguments.size := by
  induction types generalizing d os with
  | nil =>
    cases hp
    simp
  | cons type types ih =>
    rw [popAll_cons] at hp
    obtain ⟨o, d₁, h₁, hp⟩ := Action.bind_eq_ok.mp hp
    obtain ⟨os, d₂, h₂, hp⟩ := Action.bind_eq_ok.mp hp
    cases hp
    have hpop := length_stack_pop h₁
    have hrest := ih h₂
    rw [List.length_cons]
    omega

/-- An initial stack with a value for each argument is never found too short. -/
theorem Tracks.exists_append (h : d.Tracks calls stack before v current out)
    (hp : Draft.popAll types word position d = .ok os e) (he : e.arguments.size ≤ stack.length) :
    ∃ values rest, current = values ++ rest ∧ values.length = types.length := by
  have hcount := length_stack_popAll hp
  have hlength := h.length
  refine ⟨current.take types.length, current.drop types.length,
    (List.take_append_drop ..).symm, ?_⟩
  rw [List.length_take]
  omega

/-! ### Pushing results -/

theorem reads_topOutputs (v : Valuation) (results : List Value) :
    (v.add results).Reads (topOutputs v.size results.length) results.reverse := by
  refine List.forall₂_reverse_iff.mpr (List.forall₂_map_left_iff.mpr ?_)
  refine List.forall₂_iff_get.mpr ⟨List.length_range, fun i hi hi' => ?_⟩
  simp [Table.value?_add_size]

theorem Tracks.extend {kind : NodeKind} {inputs : List Output}
    (h : d.Tracks calls stack before v rest out) (hreads : v.Reads inputs values) :
    match kind.eval calls stack values out with
    | .ok results out' => results.length = kind.outputArity →
        (d.extend kind inputs).Tracks calls stack before (v.add results) (results.reverse ++ rest) out'
    | .error fault out' =>
        (d.extend kind inputs).graph.evaluate calls stack before = .error fault out' := by
  have heval : (d.extend kind inputs).graph.evaluate calls stack before =
      (v.add <$> kind.eval calls stack values) out := by
    simp only [Draft.extend, Graph.evaluate_add, Action.bind_of_ok h.evaluated, Node.eval,
      hreads.filterMap_eq]
  rw [heval]
  simp only [Functor.map, EStateM.map]
  cases hk : kind.eval calls stack values out with
  | error fault out' => rfl
  | ok results out' =>
    intro hl
    obtain ⟨top, htop, rfl⟩ := h.stack
    refine ⟨?_, ?_, results.reverse ++ top, ?_, (List.append_assoc ..).symm⟩
    · rw [heval]
      simp only [Functor.map, EStateM.map, hk]
    · simp [Draft.extend, h.size]
    · have hnew := reads_topOutputs v results
      rw [h.size, hl] at hnew
      exact List.rel_append hnew (htop.add results)

/-- A body in the place of a call pushes what it means, or fails as it does. -/
theorem Tracks.splice {V : Vocabulary} {f : Definition} {arguments results : List Output}
    {copies : Array (Option NodeId)} (h : d.Tracks calls stack before v rest out)
    (hf : f.Sound V) (hcounted : calls.Counted) (hreads : v.Reads arguments values)
    (hl : values.length = f.arguments.length)
    (hc : Definition.Copied f arguments d f.graph.nodes.toList copies e)
    (hr : f.outputs.mapM (f.transfer arguments copies) = .ok results) :
    match f.meaning calls values out with
    | .ok answer out' => ∃ v', Tracks calls stack before
        { e with stack := results.reverse ++ e.stack } v' (answer.reverse ++ rest) out'
    | .error fault out' => e.graph.evaluate calls stack before = .error fault out' := by
  have hnodes : f.graph.nodes.toList = f.graph.nodes.toList ++ [] := (List.append_nil _).symm
  have hcopies := hc.evaluate hf hcounted (hf.supplied hl) hnodes h.evaluated h.size hreads
  have hfaithful := faithful_evaluate hf.graph.ordered hcounted (hf.supplied hl) hnodes out
  simp only [Definition.meaning, Graph.evaluate, Action.bind_apply] at hcopies ⊢
  cases he : StackEffect.evaluate calls values f.graph.nodes.toList #[] out with
  | error fault out' => simpa only [he] using hcopies
  | ok w out' =>
    simp only [he] at hcopies hfaithful
    obtain ⟨v', hv', hsize, hold, hnew⟩ := hcopies
    obtain ⟨top, htop, rfl⟩ := h.stack
    have hw := hf.reads_outputs hfaithful.2 (by rw [hfaithful.1, Array.length_toList, Graph.size])
    have hresults : v'.Reads results (f.outputs.filterMap w.value?) :=
      Pointwise.comp (Pointwise.symm (Except.mapM_eq_ok.mp hr)) hw fun _ _ _ ho hx => hnew hx ho
    have hrest : v'.Reads e.stack top := by
      rw [hc.stack]
      exact htop.imp fun _ _ hx => hold hx
    refine ⟨v', hv', hsize, _, List.rel_append (List.forall₂_reverse_iff.mpr hresults) hrest, ?_⟩
    rw [hc.arguments_eq, List.append_assoc]

end Tracks

/-- Only as much of a stack as there are arguments matters for what a graph computes. -/
theorem Sound.evaluate_append {V : Vocabulary} {d : Draft} (hd : d.Sound V) (calls : Calls)
    {values : List Value} (hl : values.length = d.arguments.size) (rest : List Value) :
    d.graph.evaluate calls (values ++ rest) = d.graph.evaluate calls values := by
  refine evaluate_congr (fun n hn index type hk => ?_) (fun _ _ _ _ => rfl) #[]
  obtain ⟨id, hid⟩ := Graph.exists_node?_of_mem hn
  obtain ⟨kind, inputs⟩ := n
  cases hk
  have hlt := (Array.getElem?_eq_some_iff.mp (hd.numbered hid)).1
  rw [List.getElem?_append_left (hl ▸ hlt)]

end StackEffect.Draft
