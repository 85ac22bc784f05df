import StackEffect.Proofs.Machine.Linking

/-!
Code that has been compiled cannot go wrong. A routine that is called with values of the types in the
signature of its word returns values of the types in the signature, or ends in one of the ways that
a program has to reckon with (`yields_callWithin`): no register is read before it is written, and
every call finds a routine that takes and returns as many values as the caller thinks.
-/
namespace StackEffect

/-- The types of what a native of the host returns. -/
def Machine.nativeTypes? (symbol : String) : Option (List ValueType) :=
  if symbol ∈ ["print", "print-int", "print-float"] then some []
  else if symbol = "strlen" then some [.int32]
  else none

/-- An external word that names a native declares what the native returns. -/
def Word.Honest (w : Word) : Prop :=
  match w.kind with
  | .external s symbol => ∀ types ∈ Machine.nativeTypes? symbol,
      List.Forall₂ (fun declared type => ValueType.compatible declared type = true) s.outputs types
  | .builtin _ | .compiled _ | .pending => True

instance (w : Word) : Decidable w.Honest := by
  unfold Word.Honest
  cases w.kind <;> infer_instance

def Dictionary.Honest (d : Dictionary) : Prop := ∀ w ∈ d.words, w.Honest

instance (d : Dictionary) : Decidable d.Honest := inferInstanceAs (Decidable (∀ w ∈ d.words, _))

theorem Dictionary.Honest.word {d : Dictionary} (hd : d.Honest) {id : WordId} {w : Word}
    (hw : d.word? id = some w) : w.Honest := hd w (Array.mem_of_getElem? hw)

namespace Machine

/-- A native fails, but not for how deep calls nest, or prints a text, or counts the bytes of a
string. -/
theorem native_cases (symbol : String) (arguments : List Value) :
    (∃ e, Failure e ∧ e ≠ .runtime .callDepth ∧ native symbol arguments = throw e) ∨
    (nativeTypes? symbol = some [] ∧
      ∃ text, native symbol arguments = fun out => .ok [] (out ++ text)) ∨
    nativeTypes? symbol = some [.int32] ∧ ∃ n, native symbol arguments = pure [.int n] := by
  have hbad : ∀ arguments', ∃ e, Failure e ∧ e ≠ .runtime .callDepth ∧
      native.bad symbol arguments' = throw e :=
    fun arguments' => ⟨.runtime (.badArguments symbol arguments'), trivial, by simp, rfl⟩
  unfold native
  split_ifs with h₁ h₂ h₃ h₄
  · subst h₁
    match arguments with
    | [.str s] => exact .inr (.inl ⟨rfl, s, rfl⟩)
    | [] | [.int _] | [.float _] => exact .inl (hbad _)
    | x :: _ :: _ => cases x <;> exact .inl (hbad _)
  · subst h₂
    match arguments with
    | [.int n] =>
      refine .inr (.inl ⟨rfl, Value.intText n ++ "\n", funext fun out => ?_⟩)
      exact congrArg (EStateM.Result.ok []) (String.append_assoc ..)
    | [] | [.float _] | [.str _] => exact .inl (hbad _)
    | x :: _ :: _ => cases x <;> exact .inl (hbad _)
  · subst h₃
    match arguments with
    | [.float x] =>
      refine .inr (.inl ⟨rfl, Binary32.text x ++ "\n", funext fun out => ?_⟩)
      exact congrArg (EStateM.Result.ok []) (String.append_assoc ..)
    | [] | [.int _] | [.str _] => exact .inl (hbad _)
    | x :: _ :: _ => cases x <;> exact .inl (hbad _)
  · subst h₄
    match arguments with
    | [.str s] => exact .inr (.inr ⟨rfl, _, rfl⟩)
    | [] | [.int _] | [.float _] => exact .inl (hbad _)
    | x :: _ :: _ => cases x <;> exact .inl (hbad _)
  · exact .inl ⟨.runtime (.unresolved symbol), trivial, by simp, rfl⟩

theorem yields_native (symbol : String) (arguments : List Value) :
    (native symbol arguments).Yields
      (fun values => values.map Value.type ∈ nativeTypes? symbol) Failure := by
  rcases native_cases symbol arguments with ⟨e, he, -, h⟩ | ⟨ht, text, h⟩ | ⟨ht, n, h⟩
  · rw [h]
    exact .throw he
  · rw [h, ht]
    exact fun _ => rfl
  · rw [h, ht]
    exact .pure rfl

/-! ### Calling a routine -/

section Call
variable {routines : Array Routine} {id : Nat} {routine : Routine}

theorem callWithin_none (h : routines[id]? = none) (depth : Nat) (arguments : List Value) :
    callWithin routines (depth + 1) id arguments = throw (.runtime (.noFunction id)) := by
  simp only [callWithin, h]

theorem callWithin_native (hr : routines[id]? = some routine) (hb : routine.body = none)
    (depth : Nat) (arguments : List Value) :
    callWithin routines (depth + 1) id arguments = native routine.symbol arguments := by
  simp only [callWithin, hr, hb]

theorem callWithin_body {b : Body} (hr : routines[id]? = some routine)
    (hb : routine.body = some b) (depth : Nat) {arguments : List Value}
    (hl : arguments.length = routine.signature.inputArity) :
    callWithin routines (depth + 1) id arguments =
      runBody (callWithin routines depth) b arguments := by
  simp only [callWithin, hr, hb, hl, ne_eq, not_true_eq_false, if_false]
  rfl

theorem callWithin_count {b : Body} (hr : routines[id]? = some routine)
    (hb : routine.body = some b) (depth : Nat) {arguments : List Value}
    (hl : arguments.length ≠ routine.signature.inputArity) :
    callWithin routines (depth + 1) id arguments = throw (.runtime (.argumentCount routine.name
      arguments.length routine.signature.inputArity)) := by
  simp only [callWithin, hr, hb, hl, ne_eq, not_false_eq_true, if_true]
  rfl

/-- A call fails, or it is that of a native, or it runs a body with calls that nest less deeply. -/
theorem callWithin_cases (routines : Array Routine) (id : RoutineId) (arguments : List Value) :
    (∃ fault, ∀ depth, callWithin routines (depth + 1) id arguments = throw (.runtime fault)) ∨
    (∃ symbol, ∀ depth, callWithin routines (depth + 1) id arguments = native symbol arguments) ∨
    ∃ b, ∀ depth, callWithin routines (depth + 1) id arguments =
      runBody (callWithin routines depth) b arguments := by
  cases hr : routines[id]? with
  | none => exact .inl ⟨_, fun depth => callWithin_none hr depth arguments⟩
  | some routine =>
    cases hb : routine.body with
    | none => exact .inr (.inl ⟨_, fun depth => callWithin_native hr hb depth arguments⟩)
    | some b =>
      by_cases hl : arguments.length = routine.signature.inputArity
      · exact .inr (.inr ⟨b, fun depth => callWithin_body hr hb depth hl⟩)
      · exact .inl ⟨_, fun depth => callWithin_count hr hb depth hl⟩

end Call

section Linked
variable {d : Dictionary} {m : Machine} {functions : FunctionTable Machine.target}

theorem sound_invoke (h : Linked d m functions) {depth : Nat}
    (hcall : ∀ {id w s} {r : Nat} {arguments}, d.word? id = some w → w.signature = .ok s →
      functions[id]? = some (some r) → Fits s.inputs arguments →
      (callWithin m.routines depth r arguments).Yields (Fits s.outputs) Failure) :
    (invoke functions (callWithin m.routines depth)).Sound d.vocabulary := by
  intro callee arguments hc hargs
  obtain ⟨w, hw, hu, -, hs⟩ := hc
  obtain ⟨r, routine, hr, -⟩ := h.exists_routine hw hu
  simp only [invoke, hr, Option.join_some]
  refine (hcall hw hs hr hargs).bind fun results hresults => ?_
  have hl : results.length = callee.signature.outputArity := hresults.length_eq.symm
  simpa only [hl, if_true] using .pure hresults

/-- A word that is called with values of the types in its signature returns values of the types in
its signature, however deep its calls may nest. -/
theorem yields_callWithin (h : Linked d m functions) (honest : d.Honest) (depth : Nat) {id : WordId}
    {w : Word} {s : Signature} {r : Nat} {arguments : List Value} (hw : d.word? id = some w)
    (hs : w.signature = .ok s) (hr : functions[id]? = some (some r))
    (hargs : Fits s.inputs arguments) :
    (callWithin m.routines depth r arguments).Yields (Fits s.outputs) Failure := by
  induction depth generalizing id w s r arguments with
  | zero => exact .throw trivial
  | succ depth ih =>
    obtain ⟨r', routine, hr', hroutine, hsignature, hbody⟩ :=
      h.exists_routine hw (Word.isUser_of_signature hs)
    cases hr.symm.trans hr'
    cases hs.symm.trans hsignature
    rcases hbody with ⟨declared, hk, hbody⟩ | ⟨f, b, hk, hbody, hrealises⟩
    · cases (Word.signature_of_external hk).symm.trans hs
      have hword := honest.word hw
      simp only [Word.Honest, hk] at hword
      rw [callWithin_native hroutine hbody]
      refine (yields_native _ arguments).imp (fun values hv => ?_) fun _ he => he
      exact List.forall₂_map_right_iff.mp (hword _ hv)
    · have hf := h.sound.compiled hw hk
      have hs' := (Word.signature_of_compiled hk).symm.trans hs
      have hcalls : (invoke functions (callWithin m.routines depth)).Sound d.vocabulary :=
        sound_invoke h ih
      have hl : arguments.length = f.arguments.length := by
        rw [← hargs.length_eq, (Definition.signature_eq_ok.mp hs').1.length_eq]
      rw [callWithin_body hroutine hbody depth hargs.length_eq.symm, hrealises _ _ hl]
      exact hf.yields_meaning hs' (counted_invoke functions _) hcalls hargs

end Linked

end Machine

namespace Session

/-- A definition has a routine, also if its name finds a later word. Called with values of the types
in its signature, the routine returns values of the types in its signature, unless it divides by zero,
calls a native that is not there or turns its arguments down, or nests its calls too deeply. -/
theorem execute_typed {s : Session Machine.target} (h : Reachable ({} : Machine) s)
    (honest : s.dictionary.Honest) {id : WordId} {w : Word} {f : Definition}
    (hw : s.dictionary.word? id = some w) (hk : w.kind = .compiled f) :
    ∃ (signature : Signature) (r : RoutineId),
      w.signature = .ok signature ∧
      (∀ name, s.dictionary.lookup name = some (id, w) → s.signature name = .ok signature) ∧
      s.functions[id]? = some (some r) ∧
      ∀ arguments, Fits signature.inputs arguments →
        match Machine.execute r arguments s.target with
        | .ok results _ => Fits signature.outputs results
        | .error e _ => Failure e := by
  have hu : w.isUser = true := Word.isUser_iff.mpr (.inr ⟨f, hk⟩)
  obtain ⟨r, routine, hr, -, hsignature, -⟩ := h.linked.exists_routine hw hu
  refine ⟨routine.signature, r, hsignature, fun name hname => ?_, hr, fun arguments hargs => ?_⟩
  · simpa only [signature, hname] using hsignature
  · have hyields := Machine.yields_callWithin h.linked honest (Machine.maxCallDepth + 1) hw
      hsignature hr hargs s.target.output
    simp only [Machine.execute, Machine.withOutput, Action.bind_apply, Action.get_apply,
      Action.within_apply]
    cases hcall : Machine.callWithin s.target.routines (Machine.maxCallDepth + 1) r arguments
        s.target.output with
    | ok results out => simpa only [hcall] using hyields
    | error e out => simpa only [hcall] using hyields

def doubledLength : Definition where
  name := "twice"
  graph.nodes := #[
    ⟨.argument 0 .string, []⟩,
    ⟨.call ⟨23, "strlen", ⟨[.string], [.int32]⟩⟩, [⟨0, 0⟩]⟩,
    ⟨.primitive (.shuffle .dup), [⟨1, 0⟩]⟩,
    ⟨.primitive (.binary .add .int32), [⟨2, 0⟩, ⟨2, 1⟩]⟩]
  arguments := [0]
  outputs := [⟨3, 0⟩]
  source := ["strlen", "dup", "+"]

/-- The first `twice` is called by the second, which its name finds. -/
theorem execute_typed_doubledLength :
    let s := ofText "extern strlen ( s -- i ) : twice strlen dup + ; : twice twice 1 + ;"
    s.dictionary.Honest ∧ Fits [.string] [.str "abc"] ∧
      (s.dictionary.lookup "twice").map Prod.fst = some 25 ∧ ∃ r : RoutineId,
      s.functions[24]? = some (some r) ∧
      match Machine.execute r [.str "abc"] s.target with
      | .ok results _ => Fits [.int32] results
      | .error e _ => Failure e := by
  intro s
  have honest : s.dictionary.Honest := by decide +kernel
  have hargs : Fits [.string] [.str "abc"] := by decide
  have hw : s.dictionary.word? 24 = some (.compiled "twice" doubledLength) := by decide +kernel
  have hs : (Word.compiled "twice" doubledLength).signature = .ok ⟨[.string], [.int32]⟩ := by
    decide +kernel
  obtain ⟨signature, r, hs', -, hr, hexecute⟩ := execute_typed (reachable_ofText _) honest hw rfl
  cases hs.symm.trans hs'
  exact ⟨honest, hargs, by decide +kernel, r, hr, hexecute _ hargs⟩

end Session
end StackEffect
