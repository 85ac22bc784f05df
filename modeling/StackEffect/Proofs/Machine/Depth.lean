import StackEffect.Proofs.Machine.Soundness

/-!
What a call does not depend on. Calls only add to what has been printed (`appends_callWithin`) and fail
for what the code does (`technical_callWithin`); a call that does not nest too deeply does the same
when it may nest deeper (`approximates_callWithin`), and new routines do not change what older ones do
(`callWithin_congr`).
-/
namespace StackEffect
namespace Action
variable {σ α β : Type}

/-- The action adds to the printed text and does not look at what is there already. -/
def Appends (x : Action String α) : Prop := ∀ before out, x (before ++ out) = match x out with
  | .ok a t => .ok a (before ++ t)
  | .error e t => .error e (before ++ t)

namespace Appends

theorem pure (a : α) : Appends (pure a) := fun _ _ => rfl

theorem throw (e : CompileError) : Appends (throw e : Action String α) := fun _ _ => rfl

theorem ofExcept (r : Except CompileError α) : Appends (ofExcept r) := by
  cases r with
  | ok a => exact pure a
  | error e => exact throw e

theorem bind {x : Action String α} {f : α → Action String β} (hx : Appends x)
    (hf : ∀ a, Appends (f a)) : Appends (x >>= f) := by
  intro before out
  rw [bind_apply, bind_apply, hx before out]
  cases x out with
  | ok a t => exact hf a before t
  | error e t => rfl

theorem foldlM {f : β → α → Action String β} (hf : ∀ b a, Appends (f b a)) (as : List α) (b : β) :
    Appends (as.foldlM f b) := by
  induction as generalizing b with
  | nil => exact pure b
  | cons a as ih =>
    rw [List.foldlM_cons]
    exact bind (hf b a) ih

end Appends

end Action

namespace Machine

/-! ### Printing -/

theorem appends_native (symbol : String) (arguments : List Value) :
    (native symbol arguments).Appends := by
  rcases native_cases symbol arguments with ⟨e, -, -, h⟩ | ⟨-, text, h⟩ | ⟨-, n, h⟩
  · rw [h]
    exact .throw e
  · rw [h]
    exact fun before out => by simp [String.append_assoc]
  · rw [h]
    exact .pure _

theorem appends_step {call : RoutineId → List Value → Action String (List Value)}
    (hcall : ∀ id arguments, (call id arguments).Appends) (arguments : List Value)
    (rs : RegisterFile) (i : Instruction) : (step call arguments rs i).Appends := by
  cases i with
  | argument target index => exact .pure _
  | constant target value => exact .pure _
  | binary target op left right =>
    refine .bind (.ofExcept _) fun _ => .bind (.ofExcept _) fun _ => ?_
    exact .bind (.ofExcept _) fun _ => .pure _
  | cast target c source => exact .bind (.ofExcept _) fun _ => .bind (.ofExcept _) fun _ => .pure _
  | call targets routine inputs =>
    refine .bind (.ofExcept _) fun values => .bind (hcall routine values) fun results => ?_
    by_cases hl : results.length = targets.length
    · simpa only [hl, if_true] using .pure _
    · simpa only [hl, if_false] using .throw _

theorem appends_runBody {call : RoutineId → List Value → Action String (List Value)}
    (hcall : ∀ id arguments, (call id arguments).Appends) (b : Body) (arguments : List Value) :
    (runBody call b arguments).Appends :=
  .bind (.foldlM (fun rs i => appends_step hcall arguments rs i) _ _) fun _ => .ofExcept _

theorem appends_callWithin (routines : Array Routine) (depth : Nat) (id : RoutineId)
    (arguments : List Value) : (callWithin routines depth id arguments).Appends := by
  induction depth generalizing id arguments with
  | zero => exact .throw _
  | succ depth ih =>
    rcases callWithin_cases routines id arguments with ⟨e, h⟩ | ⟨symbol, h⟩ | ⟨b, h⟩
    · rw [h depth]
      exact .throw _
    · rw [h depth]
      exact appends_native symbol arguments
    · rw [h depth]
      exact appends_runBody ih b arguments

/-! ### Failing -/

theorem technical_of_failure {e : CompileError} (h : Failure e) : e.IsTechnical := by
  cases e with
  | runtime fault => trivial
  | _ => exact h.elim

theorem technical_native (symbol : String) (arguments : List Value) :
    (native symbol arguments).Technical := by
  rcases native_cases symbol arguments with ⟨e, he, -, h⟩ | ⟨-, text, h⟩ | ⟨-, n, h⟩
  · rw [h]
    exact .throw (technical_of_failure he)
  · rw [h]
    exact fun _ _ => trivial
  · rw [h]
    exact .pure _

theorem technical_of_read {rs : RegisterFile} {r : Register} {e : CompileError}
    (h : rs.read r = .error e) : e.IsTechnical := by
  unfold RegisterFile.read at h
  split at h
  · cases h
  · cases h
    trivial

theorem technical_readAll (rs : RegisterFile) (registers : List Register) :
    (Action.ofExcept (registers.mapM rs.read) : Action String (List Value)).Technical := by
  refine .ofExcept fun e h => ?_
  obtain ⟨r, -, he⟩ := Except.exists_of_mapM_eq_error h
  exact technical_of_read he

theorem technical_step {call : RoutineId → List Value → Action String (List Value)}
    (hcall : ∀ id arguments, (call id arguments).Technical) (arguments : List Value)
    (rs : RegisterFile) (i : Instruction) : (step call arguments rs i).Technical := by
  cases i with
  | argument target index => exact .pure _
  | constant target value => exact .pure _
  | binary target op left right =>
    refine .bind (.ofExcept fun _ => technical_of_read) fun _ => ?_
    refine .bind (.ofExcept fun _ => technical_of_read) fun _ => ?_
    refine .bind (.ofExcept fun e he => ?_) fun _ => .pure _
    obtain ⟨fault, rfl⟩ := BinaryOp.apply_error he
    trivial
  | cast target c source =>
    refine .bind (.ofExcept fun _ => technical_of_read) fun _ => ?_
    refine .bind (.ofExcept fun e he => ?_) fun _ => .pure _
    obtain ⟨fault, rfl⟩ := Cast.apply_error he
    trivial
  | call targets routine inputs =>
    refine .bind (technical_readAll rs inputs) fun values => ?_
    refine .bind (hcall routine values) fun results => ?_
    by_cases hl : results.length = targets.length
    · simpa only [hl, if_true] using .pure _
    · simpa only [hl, if_false] using .throw trivial

theorem technical_callWithin (routines : Array Routine) (depth : Nat) (id : RoutineId)
    (arguments : List Value) : (callWithin routines depth id arguments).Technical := by
  induction depth generalizing id arguments with
  | zero => exact .throw trivial
  | succ depth ih =>
    rcases callWithin_cases routines id arguments with ⟨fault, h⟩ | ⟨symbol, h⟩ | ⟨b, h⟩
    · rw [h depth]
      exact .throw trivial
    · rw [h depth]
      exact technical_native symbol arguments
    · rw [h depth]
      exact .bind (.foldlM (fun i _ rs => technical_step ih arguments rs i) _) fun rs =>
        technical_readAll rs b.outputs

theorem technical_execute (function : RoutineId) (arguments : List Value) :
    (execute function arguments).Technical := by
  refine .bind .get fun m => ?_
  exact .within (technical_callWithin _ _ _ _) (fun _ _ => trivial) fun _ _ _ _ => trivial

/-! ### Nesting -/

theorem approximates_step {call call' : RoutineId → List Value → Action String (List Value)}
    (hcall : ∀ id arguments, (call id arguments).Approximates (call' id arguments))
    (arguments : List Value) (rs : RegisterFile) (i : Instruction) :
    (step call arguments rs i).Approximates (step call' arguments rs i) := by
  cases i with
  | call targets routine inputs =>
    exact .bind (.refl _) fun values => .bind (hcall routine values) fun _ => .refl _
  | argument target index => exact .refl _
  | constant target value => exact .refl _
  | binary target op left right => exact .refl _
  | cast target c source => exact .refl _

/-- A call that does not nest too deeply does the same when it may nest deeper. -/
theorem approximates_callWithin (routines : Array Routine) (depth : Nat) (id : RoutineId)
    (arguments : List Value) : (callWithin routines depth id arguments).Approximates
      (callWithin routines (depth + 1) id arguments) := by
  induction depth generalizing id arguments with
  | zero => exact fun s => .inl ⟨s, rfl⟩
  | succ depth ih =>
    rcases callWithin_cases routines id arguments with ⟨e, h⟩ | ⟨symbol, h⟩ | ⟨b, h⟩
    · rw [h depth, h (depth + 1)]
      exact .refl _
    · rw [h depth, h (depth + 1)]
      exact .refl _
    · rw [h depth, h (depth + 1)]
      exact .bind (.foldlM (fun rs i => approximates_step ih arguments rs i) _ _) fun _ => .refl _

/-! ### More routines -/

section Linked
variable {d : Dictionary} {m : Machine} {functions functions' : FunctionTable Machine.target}

theorem invoke_congr {call call' : RoutineId → List Value → Action String (List Value)}
    {callee : Callee} (hf : functions'[callee.word]? = functions[callee.word]?)
    (hcall : ∀ {r : Nat}, functions[callee.word]? = some (some r) → call' r = call r) :
    invoke functions' call' callee = invoke functions call callee := by
  funext arguments
  simp only [invoke, hf]
  cases h : functions[callee.word]? with
  | none => rfl
  | some f =>
    cases f with
    | none => rfl
    | some r => simp only [Option.join_some, hcall h]

theorem callWithin_congr {routines : Array Routine} (h : Linked d m functions)
    (hm : ∀ {r : Nat} {routine}, m.routines[r]? = some routine → routines[r]? = some routine)
    (depth : Nat) {id : WordId} {w : Word} {r : Nat} (hw : d.word? id = some w)
    (hu : w.isUser = true) (hr : functions[id]? = some (some r)) :
    callWithin routines depth r = callWithin m.routines depth r := by
  induction depth generalizing id w r with
  | zero => rfl
  | succ depth ih =>
    funext arguments
    obtain ⟨r', routine, hr', hroutine, hsignature, hbody⟩ := h.exists_routine hw hu
    cases hr.symm.trans hr'
    rcases hbody with ⟨s, hk, hbody⟩ | ⟨f, b, hk, hbody, hrealises⟩
    · rw [callWithin_native hroutine hbody, callWithin_native (hm hroutine) hbody]
    · by_cases hl : arguments.length = routine.signature.inputArity
      · have hcalls : ∀ c, d.vocabulary c → invoke functions (callWithin routines depth) c =
            invoke functions (callWithin m.routines depth) c := by
          intro c hc
          obtain ⟨v, hv, hvu, -⟩ := hc
          exact invoke_congr rfl fun hf => ih hv hvu hf
        have hs := (Word.signature_of_compiled hk).symm.trans hsignature
        have hlength : arguments.length = f.arguments.length := by
          rw [hl, Signature.inputArity, (Definition.signature_eq_ok.mp hs).1.length_eq]
        rw [callWithin_body hroutine hbody depth hl, callWithin_body (hm hroutine) hbody depth hl,
          hrealises _ _ hlength, hrealises _ _ hlength,
          (h.sound.compiled hw hk).meaning_congr hcalls]
      · rw [callWithin_count hroutine hbody depth hl, callWithin_count (hm hroutine) hbody depth hl]

end Linked

end Machine
end StackEffect
