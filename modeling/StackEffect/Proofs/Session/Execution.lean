import StackEffect.Proofs.Session.Halting
import StackEffect.Proofs.Session.Immediate

/-!
What executing a token can do, case by case (`Execution`, `execution`): it changes stack, output and
dictionary, it is refused and changes nothing, or it calls a function. A call alone can fail after the
stack has been changed, and the arguments are what is lost then (`stack_of_run_error`).
-/
namespace StackEffect

/-- A complaint of the session about a token that it is asked to execute. -/
def CompileError.IsRefusal : CompileError → Prop
  | .unknownToken _ | .stackUnderflow .. | .runtime _ | .indexOutOfRange ..
  | .arity _ (.operandCount ..) | .unsupported (.executesPending _)
  | .unsupported .nothingToInline => True
  | _ => False

theorem Primitive.isRefusal_of_eval {p : Primitive} {operands : List Value} {e : CompileError}
    (h : p.eval operands = .error e) : e.IsRefusal := by
  rcases eval_error h with ⟨fault, rfl⟩ | ⟨word, expected, given, rfl⟩ <;> trivial

namespace Session
variable {T : Target} {s s' : Session T} {t : Token} {e : CompileError}

/-- The values that a token's word is called with: those on top of the stack, if they are what its
signature asks for. -/
def arguments (s : Session T) (t : Token) : List Value :=
  match named s.dictionary t with
  | none => []
  | some (_, w) =>
    match w.signature with
    | .error _ => []
    | .ok signature =>
      let values := s.stack.take signature.inputArity
      if Fits signature.inputs values then values else []

theorem arguments_of_named {id : WordId} {w : Word} {signature : Signature}
    (hn : named s.dictionary t = some (id, w)) (hw : w.signature = .ok signature) :
    s.arguments t =
      if Fits signature.inputs (s.stack.take signature.inputArity) then
        s.stack.take signature.inputArity
      else [] := by
  unfold arguments
  simp only [hn, hw]

theorem arguments_of_signature_error {id : WordId} {w : Word}
    (hn : named s.dictionary t = some (id, w)) (hw : w.signature = .error e) :
    s.arguments t = [] := by
  unfold arguments
  simp only [hn, hw]

/-- What executing a token comes to, in dependence on its position in the text. -/
inductive Execution (s : Session T) (t : Token) :
    (Nat → EStateM.Result CompileError (Session T) Unit) → Prop
  | done (stack : List Value) (output : String) (dictionary : Dictionary) :
      Execution s t fun _ => .ok () { s with stack, output, dictionary }
  | refused (e : CompileError) : s.arguments t = [] → e.IsRefusal →
      Execution s t fun _ => .error e s
  | mismatched (word : String) (expected actual : ValueType) : s.arguments t = [] →
      Execution s t fun position => .error (.typeMismatch word position expected actual) s
  | called (function : T.Function) (rest : List Value) : s.stack = s.arguments t ++ rest →
      Execution s t fun _ => match T.execute function (s.arguments t) s.target with
        | .ok results target =>
          .ok () { ({ s with stack := rest, target } : Session T).takeOver with
            stack := results.reverse ++ rest }
        | .error e target => .error e { s with stack := rest, target }
  | unfilled (word : String) (rest : List Value) : s.stack = s.arguments t ++ rest →
      Execution s t fun _ => .error (.unsupported (.notCompiled word)) { s with stack := rest }

/-! ### Operands -/

/-- Checks of operands all succeed, or the first that fails does so with the position it is made
for. -/
theorem checkOperands_cases {α : Type} (word : String) (required : α → ValueType)
    (value : α → Value) (xs : List α) :
    (∀ position, xs.forM (fun x => checkOperand word position (required x) (value x)) = .ok ()) ∨
      ∃ expected actual, ∀ position,
        xs.forM (fun x => checkOperand word position (required x) (value x)) =
          .error (.typeMismatch word position expected actual) := by
  induction xs with
  | nil => exact .inl fun _ => rfl
  | cons x xs ih =>
    have hcons : ∀ position,
        (x :: xs).forM (fun x => checkOperand word position (required x) (value x)) =
          checkOperand word position (required x) (value x) >>= fun _ =>
            xs.forM fun x => checkOperand word position (required x) (value x) := fun _ => rfl
    by_cases hx : ValueType.compatible (required x) (value x).type = true
    · have hok : ∀ position, checkOperand word position (required x) (value x) = .ok () :=
        fun _ => checkOperand_eq_ok.mpr hx
      simpa only [hcons, hok, bind, Except.bind] using ih
    · refine .inr ⟨required x, (value x).type, fun position => ?_⟩
      rw [hcons, checkOperand, if_neg hx]
      rfl

theorem topValues_cases (word : String) (count : Nat) (s : Session T) :
    (∃ values rest, s.stack = values ++ rest ∧ values.length = count ∧
      topValues word count s = .ok values s) ∨
    s.stack.length < count ∧
      topValues word count s = .error (.stackUnderflow word count s.stack.length) s := by
  unfold topValues
  rw [Action.bind_of_ok (Action.get_apply s)]
  by_cases h : count ≤ s.stack.length
  · exact .inl ⟨s.stack.take count, s.stack.drop count, (List.take_append_drop count _).symm,
      List.length_take_of_le h, by simp only [h, if_true, Action.pure_apply]⟩
  · exact .inr ⟨Nat.lt_of_not_le h, by simp only [h, if_false, Action.throw_apply]⟩

/-! ### Tokens -/

theorem execution_primitive (p : Primitive) (hargs : s.arguments t = []) :
    Execution s t fun position => executePrimitive p position s := by
  rcases topValues_cases p.name p.inputArity s with ⟨values, rest, hs, hl, htop⟩ | ⟨-, htop⟩
  · rcases checkOperands_cases p.name (fun _ => p.operandType) id values.reverse with
      hcheck | ⟨expected, actual, hcheck⟩
    · have hfits : Fits (List.replicate p.inputArity p.operandType) values :=
        hl ▸ checkOperands_eq_ok.mp (hcheck 0)
      simp only [executePrimitive_eq hs hfits]
      cases heval : p.eval values.reverse with
      | ok results => exact .done (results.reverse ++ rest) s.output s.dictionary
      | error e => exact .refused e hargs (Primitive.isRefusal_of_eval heval)
    · have hfail : ∀ position, executePrimitive p position s =
          .error (.typeMismatch p.name position expected actual) s := by
        intro position
        have h := hcheck position
        simp only [id] at h
        rw [executePrimitive, Action.bind_of_ok htop, h]
        rfl
      simp only [hfail]
      exact .mismatched p.name expected actual hargs
  · have hfail : ∀ position, executePrimitive p position s =
        .error (.stackUnderflow p.name p.inputArity s.stack.length) s :=
      fun _ => Action.bind_of_error htop _
    simp only [hfail]
    exact .refused _ hargs trivial

theorem execution_directive (d : Directive) (hargs : s.arguments t = []) :
    Execution s t fun _ => executeDirective d s := by
  cases d with
  | print =>
    rcases topValues_cases "." 1 s with ⟨values, rest, hs, hl, htop⟩ | ⟨-, htop⟩
    · have hdone : executeDirective .print s = .ok () { s with
          stack := rest
          output := s.output ++ String.join (values.map fun value => value.text ++ " ") } := by
        rw [executeDirective, Action.bind_of_ok htop]
        simp [Action.bind_apply, drop, print, hs, ← hl]
      rw [hdone]
      exact .done rest _ s.dictionary
    · have hfail : executeDirective .print s = .error (.stackUnderflow "." 1 s.stack.length) s :=
        Action.bind_of_error htop _
      rw [hfail]
      exact .refused _ hargs trivial
  | printStack => exact .done s.stack _ s.dictionary
  | words => exact .done s.stack _ s.dictionary
  | see => exact .refused _ hargs trivial
  | markInline =>
    rw [executeDirective, Action.bind_of_ok (Action.get_apply s)]
    cases s.dictionary.latestDefinition with
    | none => exact .refused _ hargs trivial
    | some id => exact .done s.stack s.output _

theorem execution_call {id : WordId} {w : Word} {signature : Signature} {values rest : List Value}
    (hn : named s.dictionary t = some (id, w)) (hw : w.signature = .ok signature)
    (hs : s.stack = values ++ rest) (hl : values.length = signature.inputArity) :
    Execution s t fun position => executeWord id w position s := by
  have hsignature : (Action.ofExcept w.signature : Action (Session T) _) s = .ok signature s := by
    rw [hw]
    rfl
  have htop : topValues w.name signature.inputArity s = .ok values s := hl ▸ topValues_append hs
  have hargs := arguments_of_named hn hw
  rw [hs, ← hl, List.take_left] at hargs
  rcases checkOperands_cases w.name Prod.fst Prod.snd (signature.inputs.zip values) with
    hcheck | ⟨expected, actual, hcheck⟩
  · have hfits : Fits signature.inputs values := (checkArguments_eq_ok hl).mp (hcheck 0)
    rw [if_pos hfits] at hargs
    cases hf : (s.functions[id]?).join with
    | some function =>
      have hfilled : s.functions[id]? = some (some function) := Option.join_eq_some_iff.mp hf
      simp only [executeWord_eq hw hfilled hs hfits, ← hargs]
      exact .called function rest (by rw [hargs, hs])
    | none =>
      have hfail : ∀ position, executeWord id w position s =
          .error (.unsupported (.notCompiled w.name)) { s with stack := rest } := by
        intro position
        rw [executeWord, Action.bind_of_ok hsignature, Action.bind_of_ok htop, hcheck position]
        simp only [Action.bind_apply, Action.ofExcept_ok, drop, Action.modify_apply,
          Action.get_apply, hs, ← hl, List.drop_left, hf, Action.throw_apply]
      simp only [hfail]
      exact .unfilled w.name rest (by rw [hargs, hs])
  · have hmiss : ¬Fits signature.inputs values := by
      intro hfits
      have hok : (signature.inputs.zip values).forM (fun x => checkOperand w.name 0 x.1 x.2) =
          .ok () := (checkArguments_eq_ok hl).mpr hfits
      cases hok.symm.trans (hcheck 0)
    rw [if_neg hmiss] at hargs
    have hfail : ∀ position, executeWord id w position s =
        .error (.typeMismatch w.name position expected actual) s := by
      intro position
      rw [executeWord, Action.bind_of_ok hsignature, Action.bind_of_ok htop, hcheck position]
      rfl
    simp only [hfail]
    exact .mismatched w.name expected actual hargs

theorem execution_word {id : WordId} {w : Word} (hn : named s.dictionary t = some (id, w))
    (hu : w.isUser = true) : Execution s t fun position => executeWord id w position s := by
  cases hw : w.signature with
  | error e =>
    have hfail : ∀ position, executeWord id w position s = .error e s := fun position =>
      Action.bind_of_error (by rw [hw]; rfl) _
    obtain ⟨index, bound, rfl⟩ : ∃ index bound, e = .indexOutOfRange index bound := by
      rcases Word.isUser_iff.mp hu with ⟨signature, symbol, hk⟩ | ⟨f, hk⟩
      · cases (Word.signature_of_external hk).symm.trans hw
      · exact Definition.signature_error ((Word.signature_of_compiled hk).symm.trans hw)
    simp only [hfail]
    exact .refused _ (arguments_of_signature_error hn hw) trivial
  | ok signature =>
    rcases topValues_cases w.name signature.inputArity s with
      ⟨values, rest, hs, hl, -⟩ | ⟨hshort, htop⟩
    · exact execution_call hn hw hs hl
    · have hmiss : ¬Fits signature.inputs (s.stack.take signature.inputArity) := by
        intro hfits
        have hl : signature.inputArity = _ := hfits.length_eq
        rw [List.length_take] at hl
        omega
      have hargs : s.arguments t = [] := by rw [arguments_of_named hn hw, if_neg hmiss]
      have hfail : ∀ position, executeWord id w position s =
          .error (.stackUnderflow w.name signature.inputArity s.stack.length) s := by
        intro position
        rw [executeWord, hw]
        exact Action.bind_of_error htop _
      simp only [hfail]
      exact .refused _ hargs trivial

/-- What executing a token comes to is one of the cases that there are. -/
theorem execution (s : Session T) (t : Token) :
    Execution s t fun position => executeToken t position s := by
  cases hn : named s.dictionary t with
  | none =>
    have hargs : s.arguments t = [] := by simp only [arguments, hn]
    cases hv : constant t with
    | ok value =>
      simp only [executeToken_of_literal hn hv]
      exact .done (value :: s.stack) s.output s.dictionary
    | error e =>
      have hfail : ∀ position, executeToken t position s = .error e s := by
        intro position
        rw [executeToken, Action.bind_of_ok (Action.get_apply s), hn]
        simp only [hv]
        rfl
      have he : e.IsRefusal := by
        unfold constant at hv
        split at hv <;> cases hv
        trivial
      simp only [hfail]
      exact .refused e hargs he
  | some x =>
    obtain ⟨id, w⟩ := x
    cases hu : w.isUser with
    | true =>
      simp only [executeToken_of_user hn hu]
      exact execution_word hn hu
    | false =>
      cases hk : w.kind with
      | compiled d => simp [Word.isUser, hk] at hu
      | external signature symbol => simp [Word.isUser, hk] at hu
      | pending =>
        have hw : w.signature = .error (.unsupported (.noFixedSignature w.name)) := by
          simp only [Word.signature, hk]
        have hfail : ∀ position, executeToken t position s =
            .error (.unsupported (.executesPending w.name)) s := by
          intro position
          rw [executeToken, Action.bind_of_ok (Action.get_apply s), hn]
          simp only [hk]
          rfl
        simp only [hfail]
        exact .refused _ (arguments_of_signature_error hn hw) trivial
      | builtin b =>
        have hw : w.signature = .error (.unsupported (.noFixedSignature w.name)) := by
          simp only [Word.signature, hk]
        have hargs := arguments_of_signature_error hn hw
        cases b with
        | primitive p =>
          simp only [executeToken_of_primitive hn hk]
          exact execution_primitive p hargs
        | directive d =>
          have hdirective : ∀ position, executeToken t position s = executeDirective d s := by
            intro position
            rw [executeToken, Action.bind_of_ok (Action.get_apply s), hn]
            simp only [hk]
          simp only [hdirective]
          exact execution_directive d hargs

theorem exists_execution (s : Session T) (t : Token) : ∃ result, Execution s t result ∧
    ∀ position, executeToken t position s = result position :=
  ⟨_, execution s t, fun _ => rfl⟩

/-! ### The stack after a failure -/

/-- A token that fails loses the arguments of its word. -/
theorem stack_of_executeToken_error {position : Nat}
    (h : executeToken t position s = .error e s') : s.stack = s.arguments t ++ s'.stack := by
  obtain ⟨result, hx, hresult⟩ := exists_execution s t
  rw [hresult] at h
  cases hx with
  | done => cases h
  | refused e hargs =>
    cases h
    rw [hargs, List.nil_append]
  | mismatched word expected actual hargs =>
    cases h
    rw [hargs, List.nil_append]
  | called function rest hs =>
    dsimp only at h
    split at h <;> cases h
    exact hs
  | unfilled word rest hs =>
    cases h
    exact hs

theorem see_cases (name : String) (s : Session T) :
    see name s = .error (.unknownToken name) s ∨ ∃ output, see name s = .ok () { s with output } := by
  rw [see, Action.bind_of_ok (Action.get_apply s)]
  cases s.dictionary.lookup name with
  | none => exact .inl rfl
  | some x =>
    cases hd : x.2.definition? with
    | none =>
      simp only [hd]
      exact .inr ⟨_, rfl⟩
    | some d =>
      simp only [hd]
      exact .inr ⟨_, rfl⟩

/-- The values that are lost if the next phrase of a text fails. -/
def atRisk (s : Session T) (c : Cursor) : List Value :=
  match c.nextPhrase s.seesNext with
  | .ok (some (.token t, _)) => s.arguments t
  | _ => []

/-- Definitions, declarations and requests to see a word that fail leave the stack alone. -/
theorem stack_of_perform_error {position : Nat} {phrase : Phrase}
    (h : perform position phrase s = .error e s') :
    (∃ t, phrase = .token t ∧ s.stack = s.arguments t ++ s'.stack) ∨
      (∀ t, phrase ≠ .token t) ∧ s'.stack = s.stack := by
  cases phrase with
  | token t => exact .inl ⟨t, rfl, stack_of_executeToken_error h⟩
  | definition name body fault =>
    refine .inr ⟨nofun, ?_⟩
    rcases define_eq_error h with ⟨draft, -, rfl⟩ | ⟨draft, -, -, rfl⟩ | ⟨draft, target, -, -, -, rfl⟩
      <;> rfl
  | declaration name inputs outputs =>
    obtain ⟨target, rfl, -⟩ := declare_eq_error h
    exact .inr ⟨nofun, rfl⟩
  | see name =>
    refine .inr ⟨nofun, ?_⟩
    rcases see_cases name s with hs | ⟨output, hs⟩ <;> cases hs.symm.trans h
    rfl

/-- A run that fails leaves the stack as it is where the run comes to a halt, but for the arguments of
a compiled or external word whose call fails. They have been taken off, and they are lost. -/
theorem stack_of_run_error {text : String} (h : run text s = .error e s') :
    let (c, before) := halt (.ofText text) s
    before.stack = before.atRisk c ++ s'.stack ∧
      (s'.stack = before.stack ↔ before.atRisk c = []) := by
  obtain ⟨s₁, hrun, rfl⟩ := run_eq_error.mp h
  have hends := ends_halt (.ofText text) s
  rw [hrun] at hends
  generalize halt (.ofText text) s = here at hends
  obtain ⟨c, before⟩ := here
  have hstack : before.stack = before.atRisk c ++ s₁.stack := by
    cases hends with
    | unread hn => simp only [atRisk, hn, List.nil_append]
    | @failed phrase rest e s' hn hp =>
      unfold atRisk
      rcases stack_of_perform_error hp with ⟨t, rfl, hs⟩ | ⟨hphrase, hs⟩
      · simpa only [hn] using hs
      · rw [hn]
        cases phrase with
        | token t => exact absurd rfl (hphrase t)
        | definition name body fault => exact hs.symm
        | declaration name inputs outputs => exact hs.symm
        | see name => exact hs.symm
  refine ⟨hstack, fun hsame => ?_, fun hlost => ?_⟩
  · rw [show s₁.reset.takeOver.stack = s₁.stack from rfl] at hsame
    rw [hsame] at hstack
    exact List.self_eq_append_left.mp hstack
  · rw [hstack, hlost]
    rfl

def dividing : Session Machine.target := ofText ": ratio / ; \"x\""

/-- What is below the arguments stays, and so does what an operation is refused for. -/
theorem stack_of_run_error_dividing :
    let lost := (run "7 1 0 ratio").attempt dividing
    let kept := (run "7 1 0 /").attempt dividing
    lost.1 = .error (.runtime (.divisionByZero .div)) ∧
      kept.1 = .error (.runtime (.divisionByZero .div)) ∧
      (halt (.ofText "7 1 0 ratio") dividing).2.stack =
        (halt (.ofText "7 1 0 ratio") dividing).2.atRisk (halt (.ofText "7 1 0 ratio") dividing).1 ++
          lost.2.stack ∧
      kept.2.stack = [.int 0, .int 1, .int 7, .str "x"] := by
  have hlost : ((run "7 1 0 ratio").attempt dividing).1 =
      .error (.runtime (.divisionByZero .div)) := by decide +kernel
  have hkept : ((run "7 1 0 /").attempt dividing).1 =
      .error (.runtime (.divisionByZero .div)) := by decide +kernel
  have hnone : (halt (.ofText "7 1 0 /") dividing).2.atRisk (halt (.ofText "7 1 0 /") dividing).1 =
      [] := by decide +kernel
  have hstack : (halt (.ofText "7 1 0 /") dividing).2.stack =
      [.int 0, .int 1, .int 7, .str "x"] := by decide +kernel
  exact ⟨hlost, hkept, (stack_of_run_error (Action.attempt_eq_error.mp hlost)).1,
    ((stack_of_run_error (Action.attempt_eq_error.mp hkept)).2.mpr hnone).trans hstack⟩

/-- A division by zero in a word takes the two numbers off the stack. -/
theorem stack_lost_dividing :
    (halt (.ofText "7 1 0 ratio") dividing).2.stack = [.int 0, .int 1, .int 7, .str "x"] ∧
      ((run "7 1 0 ratio").attempt dividing).1 = .error (.runtime (.divisionByZero .div)) ∧
      ((run "7 1 0 ratio").attempt dividing).2.stack = [.int 7, .str "x"] := by
  decide +kernel

end Session
end StackEffect
