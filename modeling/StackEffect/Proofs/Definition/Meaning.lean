import StackEffect.Proofs.Definition.Splice
import StackEffect.Proofs.Graph.Valuation

/-!
What a definition does. A sound definition takes and gives values of the types in its signature
(`Sound.yields_meaning`). Where it has been put in the place of a call, the copies of its nodes do
just what the definition does (`Copied.evaluate`).
-/
namespace StackEffect

/-- What a definition computes from its arguments, and what it prints on the way. -/
def Definition.meaning (calls : Calls) (f : Definition) (arguments : List Value) :
    Action String (List Value) := do
  let v ← f.graph.evaluate calls arguments
  return f.outputs.filterMap v.value?

namespace Definition
variable {V : Vocabulary} {f : Definition} {calls : Calls}

theorem Sound.admits (hf : f.Sound V) {s : Signature} (hs : f.signature = .ok s)
    {values : List Value} (hargs : Fits s.inputs values) : f.graph.Admits values := by
  intro id index declared inputs hn
  obtain ⟨type, ht, hto⟩ := Pointwise.right_of_left (signature_eq_ok.mp hs).1 (hf.numbered hn)
  obtain ⟨x, hx, hc⟩ := Pointwise.right_of_left hargs ht
  refine ⟨x, hx, fun type' ht' => ?_⟩
  cases hto.symm.trans ht'
  exact hc

/-- A stack admits the types of the arguments when the values on top have the inferred types. -/
theorem Sound.admits_iff (hf : f.Sound V) {s : Signature} (hs : f.signature = .ok s)
    {stack : List Value} : f.graph.Admits stack ↔ Fits s.inputs (stack.take s.inputArity) := by
  constructor
  · intro h
    refine Pointwise.of_getElem? fun index type ht => ?_
    obtain ⟨id, hid, hto⟩ := Pointwise.left_of_right (signature_eq_ok.mp hs).1 ht
    obtain ⟨declared, inputs, hn⟩ := hf.argument hid
    obtain ⟨x, hx, hc⟩ := h hn
    exact ⟨x, hx, hc type hto⟩
  · intro h
    have hadmits : f.graph.Admits (stack.take s.inputArity ++ stack.drop s.inputArity) :=
      Graph.Admits.append (hf.admits hs h) _
    rwa [List.take_append_drop] at hadmits

theorem Sound.supplied (hf : f.Sound V) {values : List Value}
    (hl : values.length = f.arguments.length) : f.graph.Supplied values := by
  intro id index declared inputs hn
  rw [hl]
  exact (List.getElem?_eq_some_iff.mp (hf.numbered hn)).1

theorem Sound.reads_outputs (hf : f.Sound V) {v : Valuation} (hv : v.Faithful f.graph)
    (hsize : v.size = f.graph.size) :
    v.Reads f.outputs (f.outputs.filterMap v.value?) := by
  refine hv.count.reads fun o ho => ⟨hf.outputs ho, ?_⟩
  rw [hsize]
  exact (hf.outputs ho).lt_size

theorem Sound.counted_meaning (hf : f.Sound V) (hcounted : calls.Counted) {values : List Value}
    (hl : values.length = f.arguments.length) :
    (f.meaning calls values).Yields (fun results => results.length = f.outputs.length)
      fun _ => True := by
  have hnodes : f.graph.nodes.toList = f.graph.nodes.toList ++ [] := (List.append_nil _).symm
  refine (faithful_evaluate hf.graph.ordered hcounted (hf.supplied hl) hnodes).bind
    fun v ⟨hsize, hv⟩ => .pure ?_
  exact (hf.reads_outputs hv (by rw [hsize, Array.length_toList, Graph.size])).length_eq.symm

/-- Arguments of the right types give results of the right types, unless the evaluation fails. -/
theorem Sound.yields_meaning (hf : f.Sound V) {s : Signature} (hs : f.signature = .ok s)
    (hcounted : calls.Counted) (hcalls : calls.Sound V) {values : List Value}
    (hargs : Fits s.inputs values) :
    (f.meaning calls values).Yields (Fits s.outputs) Failure := by
  have hnodes : f.graph.nodes.toList = f.graph.nodes.toList ++ [] := (List.append_nil _).symm
  have h := typed_evaluate hf.graph hcounted hcalls (hf.admits hs hargs) hnodes
  refine h.bind fun v ⟨hsize, hv, ht⟩ => .pure ?_
  have hreads := hf.reads_outputs hv (by rw [hsize, Array.length_toList, Graph.size])
  have ha : List.Forall₂ f.graph.Accepts s.outputs f.outputs :=
    (Pointwise.symm (signature_eq_ok.mp hs).2).imp fun type o h =>
      ⟨type, h, ValueType.compatible_self type⟩
  exact ht.fits ha hreads

/-! ### Copies -/

/-- The copies in the caller have the values that the body has by itself, and fail as it does. -/
theorem Copied.evaluate {arguments : List Output} {start d : Draft} {nodes rest : List Node}
    {copies : Array (Option NodeId)} (h : Copied f arguments start nodes copies d)
    (hf : f.Sound V) (hcounted : calls.Counted) {values outer : List Value}
    (hvalues : f.graph.Supplied values) (hnodes : f.graph.nodes.toList = nodes ++ rest)
    {v : Valuation} {before after : String}
    (hstart : start.graph.evaluate calls outer before = .ok v after)
    (hsize : v.size = start.graph.size) (hargs : v.Reads arguments values) :
    match StackEffect.evaluate calls values nodes #[] after with
    | .ok w out => ∃ v', d.graph.evaluate calls outer before = .ok v' out ∧
        v'.size = d.graph.size ∧ (∀ {o x}, v.value? o = some x → v'.value? o = some x) ∧
        ∀ {o o' x}, w.value? o = some x → f.transfer arguments copies o = .ok o' →
          v'.value? o' = some x
    | .error e out => d.graph.evaluate calls outer before = .error e out := by
  induction h generalizing rest with
  | none =>
    refine ⟨v, hstart, hsize, id, fun {o o' x} hx => ?_⟩
    exact absurd (Table.lt_size_of_value? hx) (Nat.not_lt_zero _)
  | @argument nodes copies d index type inputs h ih =>
    rw [List.append_assoc] at hnodes
    have hprefix := ih hnodes
    have hw := faithful_evaluate hf.graph.ordered hcounted hvalues hnodes after
    rw [evaluate_concat, Action.bind_apply]
    cases he : StackEffect.evaluate calls values nodes #[] after with
    | error e out => simpa only [he] using hprefix
    | ok w out =>
      simp only [he] at hprefix hw
      obtain ⟨v', hd, hsize', hold, hcopies⟩ := hprefix
      refine ⟨v', hd, hsize', hold, fun {o o' x} hx ho => ?_⟩
      rcases Table.value?_add_eq_some.mp hx with hx | ⟨i, rfl, hnew⟩
      · rw [transfer_eq_of_lt (by rw [h.length, ← hw.1]; exact Table.lt_size_of_value? hx)] at ho
        exact hcopies hx ho
      · have hn : f.graph.node? w.size = some ⟨.argument index type, inputs⟩ := by
          rw [hw.1]
          exact Graph.node?_of_toList hnodes
        have hx' : values[index]? = some x := by
          simpa using List.mem_of_getElem? hnew
        obtain ⟨o'', ho'', hvalue⟩ := Pointwise.left_of_right hargs hx'
        rw [transfer_argument hn ho''] at ho
        cases ho
        exact hold hvalue
  | @node nodes copies d n inputs h hk hi ih =>
    rw [List.append_assoc] at hnodes
    have hprefix := ih hnodes
    have hw := faithful_evaluate hf.graph.ordered hcounted hvalues hnodes after
    rw [evaluate_concat, Action.bind_apply]
    cases he : StackEffect.evaluate calls values nodes #[] after with
    | error e out =>
      simp only [he] at hprefix ⊢
      rw [Graph.evaluate_add]
      exact Action.bind_of_error hprefix _
    | ok w out =>
      simp only [he] at hprefix hw
      obtain ⟨v', hd, hsize', hold, hcopies⟩ := hprefix
      have hn : f.graph.node? w.size = some n := by
        rw [hw.1]
        exact Graph.node?_of_toList hnodes
      have hinputs : v'.Reads inputs (n.inputs.filterMap w.value?) :=
        Pointwise.comp (Pointwise.symm (Except.mapM_eq_ok.mp hi))
          (hw.2.count.reads_inputs hf.graph.ordered hn) fun _ _ _ ho hx => hcopies hx ho
      have heval : Node.eval calls outer v' ⟨n.kind, inputs⟩ = n.eval calls values w := by
        rw [Node.eval, hinputs.filterMap_eq]
        exact NodeKind.eval_of_ne_argument hk ..
      rw [Graph.evaluate_add, Action.bind_of_ok hd, heval]
      simp only [Functor.map, EStateM.map]
      cases n.eval calls values w out with
      | error e out' => rfl
      | ok results out' =>
        refine ⟨v'.add results, rfl, ?_, fun hx => Table.value?_add_of_some _ (hold hx),
          fun {o o' x} hx ho => ?_⟩
        · simp [Graph.size_add, hsize']
        · rcases Table.value?_add_eq_some.mp hx with hx | ⟨i, rfl, hnew⟩
          · rw [transfer_eq_of_lt (by rw [h.length, ← hw.1]; exact Table.lt_size_of_value? hx)] at ho
            exact Table.value?_add_of_some _ (hcopies hx ho)
          · have hc : (copies.push (some d.graph.size))[w.size]? = some (some d.graph.size) := by
              rw [Array.getElem?_push, if_pos (hw.1.trans h.length.symm)]
            rw [transfer_copy hn hk hc] at ho
            cases ho
            rw [← hsize', Table.value?_add_size, hnew]

end Definition
end StackEffect
