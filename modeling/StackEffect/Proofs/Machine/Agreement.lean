import StackEffect.Proofs.Machine.Acceptance
import StackEffect.Proofs.Session.Following

/-!
Executing a body token by token is executing its definition (`execute_agrees`). One token does to the
runtime stack what it does in a body (`executeToken_does`), so that the tokens of a body leave what
the nodes of its graph leave, which is what the code of the definition computes.
-/
namespace StackEffect

namespace Session

/-- All that has been printed, also what has not been taken over from executed code. -/
def printed (s : Session Machine.target) : String := s.output ++ s.target.output

/-- `later` has the words of `s` and the same code for them. -/
structure Same (s later : Session Machine.target) : Prop where
  dictionary : later.dictionary = s.dictionary
  functions : later.functions = s.functions
  routines : later.target.routines = s.target.routines

section Tokens
variable {s₀ s : Session Machine.target} {t : Token} {types : List ValueType}
  {values rest : List Value}

/-- A word does what its routine does, and the routine may nest deeper than in a body. -/
theorem executeWord_does (h : Machine.Linked s₀.dictionary s₀.target s₀.functions)
    (hsame : Same s₀ s) {id : WordId} {w : Word} {signature : Signature}
    (hw : s₀.dictionary.word? id = some w) (hu : w.isUser = true)
    (hsignature : w.signature = .ok signature) (hs : s.stack = values ++ rest)
    (hfits : Fits signature.inputs values) {run : Action String (List Value)}
    (hrun : ∀ r : Nat, s₀.functions[id]? = some (some r) →
      run.Approximates (Machine.callWithin s₀.target.routines (Machine.maxCallDepth + 1) r values))
    (position : Nat) :
    match run s.printed with
    | .ok results out => ∃ s', executeWord id w position s = .ok () s' ∧ Same s₀ s' ∧
        s'.stack = results.reverse ++ rest ∧ s'.printed = out
    | .error e out => e ≠ .runtime .callDepth →
        ∃ s', executeWord id w position s = .error e s' ∧ s'.printed = out := by
  obtain ⟨r, routine, hr, -⟩ := h.exists_routine hw hu
  have hf : s.functions[id]? = some (some r) := by rw [hsame.functions, hr]
  rw [executeWord_eq hsignature hf hs hfits]
  have happends := Machine.appends_callWithin s₀.target.routines (Machine.maxCallDepth + 1) r values
    s.output s.target.output
  have hexecute : Machine.target.execute r values s.target = _ :=
    Machine.execute_apply r values s.target
  rw [hexecute, hsame.routines]
  rcases hrun r hr s.printed with ⟨out, hdepth⟩ | heq
  · simp [hdepth]
  · rw [← heq, printed, happends]
    cases Machine.callWithin s₀.target.routines (Machine.maxCallDepth + 1) r values
        s.target.output with
    | error e out => exact fun _ => ⟨_, rfl, rfl⟩
    | ok results out =>
      refine ⟨_, rfl, ⟨hsame.dictionary, hsame.functions, rfl⟩, rfl, ?_⟩
      simp [printed, takeOver]

theorem executeToken_does (h : Machine.Linked s₀.dictionary s₀.target s₀.functions)
    (honest : s₀.dictionary.Honest) (hsame : Same s₀ s)
    {run : List Value → Action String (List Value)}
    (hdoes : Does s₀.dictionary (s₀.target.calls s₀.functions) t types run)
    (hs : s.stack = values ++ rest) (hfits : Fits types values) (position : Nat) :
    match run values s.printed with
    | .ok results out => ∃ s', executeToken t position s = .ok () s' ∧ Same s₀ s' ∧
        s'.stack = results.reverse ++ rest ∧ s'.printed = out
    | .error e out => e ≠ .runtime .callDepth →
        ∃ s', executeToken t position s = .error e s' ∧ s'.printed = out := by
  have hnamed : named s.dictionary t = named s₀.dictionary t := by rw [hsame.dictionary]
  -- Only the words of the machine can print or change it.
  have helementary : Elementary s₀.dictionary t → match run values s.printed with
      | .ok results out => ∃ s', executeToken t position s = .ok () s' ∧ Same s₀ s' ∧
          s'.stack = results.reverse ++ rest ∧ s'.printed = out
      | .error e out => e ≠ .runtime .callDepth →
          ∃ s', executeToken t position s = .error e s' ∧ s'.printed = out := by
    intro ht
    rw [← hsame.dictionary] at ht hdoes
    have hexecute := executeToken_of_elementary ht hdoes hs hfits position s.printed
    cases hrun : run values s.printed with
    | error e out =>
      simp only [hrun] at hexecute
      exact fun _ => ⟨s, hexecute.2, hexecute.1.symm⟩
    | ok results out =>
      simp only [hrun] at hexecute
      exact ⟨_, hexecute.2, ⟨hsame.dictionary, hsame.functions, hsame.routines⟩, rfl,
        hexecute.1.symm⟩
  cases hdoes with
  | literal hn hv => exact helementary (.literal hn hv)
  | primitive hn hk => exact helementary (.primitive hn hk)
  | @call id w signature hn hu hsignature =>
    have hw := word?_of_named hn
    rw [executeToken_of_user (hnamed.trans hn) hu]
    refine executeWord_does h hsame hw hu hsignature hs hfits (fun r hr => ?_) position
    -- The results of the call are as many as the caller expects.
    have hyields := Machine.yields_callWithin h honest Machine.maxCallDepth hw hsignature hr hfits
    have hinvoke : s₀.target.calls s₀.functions ⟨id, w.name, signature⟩ values =
        Machine.callWithin s₀.target.routines Machine.maxCallDepth r values := by
      funext out
      have hout := hyields out
      simp only [Machine.calls, Machine.invoke, hr, Option.join_some, Action.bind_apply]
      cases hcall : Machine.callWithin s₀.target.routines Machine.maxCallDepth r values out with
      | error e out' => rfl
      | ok results out' =>
        rw [hcall] at hout
        have hl : results.length = signature.outputArity := hout.length_eq.symm
        simp only [hl, if_true]
        rfl
    rw [hinvoke]
    exact Machine.approximates_callWithin _ _ _ _
  | @splice id w f signature hn hk hsignature =>
    have hw := word?_of_named hn
    have hu := Word.isUser_iff.mpr (.inr ⟨f, hk⟩)
    have hs' := (Word.signature_of_compiled hk).trans hsignature
    rw [executeToken_of_user (hnamed.trans hn) hu]
    refine executeWord_does h hsame hw hu hs' hs hfits (fun r hr => ?_) position
    obtain ⟨r', routine, hr', hroutine, hsignature', hbody⟩ := h.exists_routine hw hu
    cases hr.symm.trans hr'
    cases hs'.symm.trans hsignature'
    obtain ⟨_, hk', -⟩ | ⟨f', b, hk', hbody, hrealises⟩ := hbody
    · cases hk.symm.trans hk'
    cases hk.symm.trans hk'
    have hl : values.length = f.arguments.length := by
      rw [← hfits.length_eq, (Definition.signature_eq_ok.mp hsignature).1.length_eq]
    rw [Machine.callWithin_body hroutine hbody _ hfits.length_eq.symm, hrealises _ _ hl]
    exact .refl _

theorem follows_machine (h : Machine.Linked s₀.dictionary s₀.target s₀.functions)
    (honest : s₀.dictionary.Honest) :
    Follows s₀.dictionary (s₀.target.calls s₀.functions) (fun _ => True) (Same s₀) printed
      (· ≠ .runtime .callDepth) where
  step _ hsame hdoes hstack hfits position :=
    executeToken_does h honest hsame hdoes hstack hfits position

end Tokens

/-! ### Definitions -/

section Define
variable {s s₁ : Session Machine.target} {name : String} {body : List Token}

/-- Executing the definition takes its arguments off the stack and pushes what its graph means. -/
theorem executeToken_of_accepted {draft : Draft} (h : Accepted s s₁ name body draft)
    {effect : Signature} (hs : (draft.toDefinition name body).signature = .ok effect) {t : Token}
    (ht : t.text = name) (hstring : isString t = false) {values rest : List Value}
    (hstack : s.stack = values ++ rest) (hfits : Fits effect.inputs values) (position : Nat) :
    match (draft.toDefinition name body).meaning (s.target.calls s.functions) values "" with
    | .ok results text => ∃ s', executeToken t position s₁ = .ok () s' ∧
        s'.stack = results.reverse ++ rest ∧ s'.printed = s₁.printed ++ text
    | .error e text => ∃ s', executeToken t position s₁ = .error e s' ∧
        s'.printed = s₁.printed ++ text := by
  have hnamed : named s₁.dictionary t =
      some (s.dictionary.size, .compiled name (draft.toDefinition name body)) := by
    simp [named, hstring, ht, h.word]
  have hl : values.length = draft.arguments.size :=
    hfits.length_eq.symm.trans (Draft.size_arguments hs).symm
  have hexecute := (executeToken_of_user hnamed rfl position).trans
    (executeWord_eq hs h.function (h.stack.trans hstack) hfits)
  have happly : Machine.target.execute s.target.routines.size values s₁.target = _ :=
    Machine.execute_apply s.target.routines.size values s₁.target
  rw [hexecute, happly, h.computes values hl, h.meaning_append hl s₁.target.output]
  cases (draft.toDefinition name body).meaning (s.target.calls s.functions) values "" with
  | error e text => exact ⟨_, rfl, by simp [Session.printed, String.append_assoc]⟩
  | ok results text => exact ⟨_, rfl, rfl, by simp [Session.printed, takeOver, String.append_assoc]⟩

theorem executeTokens_of_read (h : Machine.Linked s.dictionary s.target s.functions)
    (honest : s.dictionary.Honest) {draft : Draft}
    (hread : readBody s.dictionary body {} = .ok () draft) {effect : Signature}
    (hs : (draft.toDefinition name body).signature = .ok effect) {values rest : List Value}
    (hstack : s.stack = values ++ rest) (hfits : Fits effect.inputs values) (start : Nat) :
    match (draft.toDefinition name body).meaning (s.target.calls s.functions) values s.printed with
    | .ok results out => ∃ s', executeTokens body start s = .ok () s' ∧
        s'.stack = results.reverse ++ rest ∧ s'.printed = out
    | .error e out => e ≠ .runtime .callDepth → ∃ s', executeTokens body start s = .error e s' ∧
        s'.printed = out := by
  have hl : values.length = draft.arguments.size :=
    hfits.length_eq.symm.trans (Draft.size_arguments hs).symm
  obtain ⟨hdraft, -⟩ := sound_readTokens h.sound (.empty _) hread
  have hadmits : draft.graph.Admits (values ++ rest) :=
    Graph.Admits.append ((hdraft.toDefinition name body).admits hs hfits) rest
  have hsize : draft.arguments.size ≤ (values ++ rest).length := by
    rw [List.length_append, hl]
    exact Nat.le_add_right _ _
  have htracks := Draft.Tracks.empty (s.target.calls s.functions) s.stack s.printed
  rw [← hstack] at hadmits hsize
  have hcalls : (s.target.calls s.functions).Sound s.dictionary.vocabulary :=
    Machine.sound_invoke h fun hw hs hr hargs => Machine.yields_callWithin h honest _ hw hs hr hargs
  have hrun := (follows_machine h honest).executeTokens h.sound (Machine.counted_invoke _ _) hcalls
    (fun _ _ => trivial) ⟨rfl, rfl, rfl⟩ (.empty _) hread htracks hadmits hsize start
  rw [hstack, hdraft.evaluate_append _ hl] at hrun
  have hgraph : (draft.toDefinition name body).graph = draft.graph := rfl
  rw [Definition.meaning, Action.bind_apply, hgraph]
  cases he : draft.graph.evaluate (s.target.calls s.functions) values s.printed with
  | error e out =>
    simp only [he] at hrun
    exact hrun
  | ok v out =>
    simp only [he] at hrun
    obtain ⟨s', hs', hfinal, hout⟩ := hrun
    refine ⟨s', hs', ?_, hout⟩
    rw [hfinal.current_eq, ← hl, List.drop_left]
    rfl

end Define

/-! ### Agreement -/

/-- Executing a body token by token, or defining a word by it and then executing the word: both leave
the same stack, with what lies below the arguments as it was, or fail in the same way. Both print the
same text, apart from the listing by which a session that traces definitions answers each of them. -/
theorem execute_agrees {S s : Session Machine.target} (h : Reachable ({} : Machine) S)
    (honest : S.dictionary.Honest) (stack : List Value) {name : String} {body : List Token}
    (hdefine : define name body none { S with stack } = .ok () s) {effect : Signature}
    (hs : s.signature name = .ok effect)
    (hfits : Fits effect.inputs (stack.take effect.inputArity)) {t : Token} (ht : t.text = name)
    (hstring : isString t = false) (start position : Nat)
    (hdepth : ∀ s', executeToken t position s ≠ .error (.runtime .callDepth) s') :
    (∃ f, s.definition? name = some f ∧
      s.printed = S.output ++ (if S.traces then f.trace ++ "\n" else "") ++ S.target.output) ∧
    ∃ text, match executeTokens body start { S with stack }, executeToken t position s with
      | .ok _ direct, .ok _ compiled => compiled.stack = direct.stack ∧
          (∃ results, direct.stack = results ++ stack.drop effect.inputArity) ∧
          direct.printed = S.printed ++ text ∧ compiled.printed = s.printed ++ text
      | .error e direct, .error e' compiled => e = e' ∧
          direct.printed = S.printed ++ text ∧ compiled.printed = s.printed ++ text
      | _, _ => False := by
  have hlinked : Machine.Linked ({ S with stack } : Session Machine.target).dictionary
      ({ S with stack } : Session Machine.target).target
      ({ S with stack } : Session Machine.target).functions := h.linked
  obtain ⟨draft, haccepted⟩ := accepted_of_define hlinked hdefine
  have hword := haccepted.word
  have hsignature : (draft.toDefinition name body).signature = .ok effect := by
    simpa only [signature, hword, Word.signature, Word.compiled] using hs
  have hstack : ({ S with stack } : Session Machine.target).stack =
      stack.take effect.inputArity ++ stack.drop effect.inputArity :=
    (List.take_append_drop ..).symm
  have hcompiled := executeToken_of_accepted haccepted hsignature ht hstring hstack hfits position
  have hdirect := executeTokens_of_read hlinked honest haccepted.read hsignature hstack hfits start
  have hl : (stack.take effect.inputArity).length = draft.arguments.size :=
    hfits.length_eq.symm.trans (Draft.size_arguments hsignature).symm
  rw [haccepted.meaning_append hl ({ S with stack } : Session Machine.target).printed] at hdirect
  refine ⟨⟨_, by rw [definition?, hword]; rfl, ?_⟩, ?_⟩
  · rw [printed, haccepted.output, haccepted.printed]
  · cases hmeaning : (draft.toDefinition name body).meaning (S.target.calls S.functions)
        (stack.take effect.inputArity) "" with
    | error e text =>
      simp only [hmeaning] at hcompiled hdirect
      obtain ⟨compiled, hc, hcout⟩ := hcompiled
      have he : e ≠ .runtime .callDepth := by
        rintro rfl
        exact hdepth compiled hc
      obtain ⟨direct, hd, hdout⟩ := hdirect he
      refine ⟨text, ?_⟩
      rw [hc, hd]
      exact ⟨rfl, hdout, hcout⟩
    | ok results text =>
      simp only [hmeaning] at hcompiled hdirect
      obtain ⟨compiled, hc, hcstack, hcout⟩ := hcompiled
      obtain ⟨direct, hd, hdstack, hdout⟩ := hdirect
      refine ⟨text, ?_⟩
      rw [hc, hd]
      exact ⟨hcstack.trans hdstack.symm, ⟨_, hdstack⟩, hdout, hcout⟩

def squaring : Session Machine.target :=
  ofText "extern print-int ( i -- ) : sq dup * ; inline : quad sq sq ;"

def squares : List Token := ["sq", "dup", "print-int", "quad"].map wordToken

theorem execute_agrees_squares : ∃ s : Session Machine.target,
    define "power" squares none { squaring with stack := [.int 3, .str "below"] } = .ok () s ∧
    ∃ text, match executeTokens squares 0 { squaring with stack := [.int 3, .str "below"] },
        executeToken (wordToken "power") 0 s with
      | .ok _ direct, .ok _ compiled => compiled.stack = direct.stack ∧
          (∃ results, direct.stack = results ++ [.str "below"]) ∧
          direct.printed = squaring.printed ++ text ∧ compiled.printed = s.printed ++ text
      | .error e direct, .error e' compiled => e = e' ∧
          direct.printed = squaring.printed ++ text ∧ compiled.printed = s.printed ++ text
      | _, _ => False := by
  let start : Session Machine.target := { squaring with stack := [.int 3, .str "below"] }
  let s := ((define "power" squares none).attempt start).2
  have hdefine : define "power" squares none start = .ok () s :=
    Action.attempt_eq_ok.mp (by decide +kernel)
  have honest : squaring.dictionary.Honest := by decide +kernel
  have hs : s.signature "power" = .ok ⟨[.int32], [.int32]⟩ := by decide +kernel
  have hfits : Fits [.int32] ([Value.int 3, .str "below"].take 1) := by decide
  have hrun : executeToken (wordToken "power") 0 s = .ok () _ :=
    Action.attempt_eq_ok.mp (by decide +kernel)
  have hdepth : ∀ s', executeToken (wordToken "power") 0 s ≠ .error (.runtime .callDepth) s' := by
    intro s' he
    rw [hrun] at he
    cases he
  exact ⟨s, hdefine, (execute_agrees (reachable_ofText _) honest _ hdefine hs hfits rfl rfl 0 0
    hdepth).2⟩

def tracing : Session Machine.target := { ofTarget ({} : Machine) with traces := true }

/-- Where definitions are traced, the listing is printed besides what executing the body prints. -/
theorem printed_define_tracing :
    let one : Token := { text := "1", literal := some (.int 1), place := {} }
    let s := ((define "one" [one] none).attempt tracing).2
    let direct := (executeTokens [one] 0).attempt tracing
    let compiled := (executeToken (wordToken "one") 0).attempt s
    Reachable ({} : Machine) tracing ∧ tracing.dictionary.Honest ∧
      define "one" [one] none tracing = .ok () s ∧ s.signature "one" = .ok ⟨[], [.int32]⟩ ∧
      direct.1 = .ok () ∧ compiled.1 = .ok () ∧ compiled.2.stack = direct.2.stack ∧
      compiled.2.printed ≠ direct.2.printed := by
  have hstart : ofConfig ({} : Machine) { traceDefinitions := true } = .ok tracing := rfl
  refine ⟨.start hstart, by decide +kernel, Action.attempt_eq_ok.mp (by decide +kernel),
    by decide +kernel, by decide +kernel, by decide +kernel, by decide +kernel, by decide +kernel⟩

end Session
end StackEffect
