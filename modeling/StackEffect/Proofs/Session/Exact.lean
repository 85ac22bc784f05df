import StackEffect.Proofs.Session.Following
import StackEffect.Proofs.Session.Rejection

/-!
Bodies of literals and operations. Whatever the tokens of such a body do on a runtime stack can be
followed while the body is read (`exists_readTokens`), so that the inferred types are met by just
those stacks on which the body can run, and a body that is turned down for a type runs on none
(`define_exact`).
-/
namespace StackEffect

/-- A runtime stack that lacks what a word asks for. -/
def CompileError.IsMisfit : CompileError → Prop
  | .typeMismatch .. | .stackUnderflow .. => True
  | _ => False

theorem not_isMisfit_of_failure {e : CompileError} (h : Failure e) : ¬e.IsMisfit := by
  intro hm
  cases e with
  | typeMismatch => exact h
  | stackUnderflow => exact h
  | _ => exact hm

theorem Primitive.Regular.askable {p : Primitive} (hp : p.Regular) : Askable p.operandType := by
  cases p with
  | shuffle s => exact .inl rfl
  | binary op type => rcases hp with rfl | rfl <;> exact .inr rfl
  | cast c => cases c <;> exact .inr rfl

def noCalls : Calls := fun _ _ => throw (.runtime .callDepth)

theorem counted_noCalls : noCalls.Counted := fun _ _ => .throw trivial

theorem sound_noCalls (V : Vocabulary) : noCalls.Sound V := fun _ _ => .throw trivial

namespace Session
variable {T : Target} {dictionary : Dictionary} {d e : Draft} {stack : List Value} {v : Valuation}
  {out : String}

theorem follows_elementary (T : Target) (dictionary : Dictionary) :
    @Follows T dictionary noCalls (Elementary dictionary) (·.dictionary = dictionary) (·.output)
      fun _ => True where
  step {s t types run values rest} ht hs hdoes hstack hfits position := by
    subst hs
    have hexecute := executeToken_of_elementary ht hdoes hstack hfits position s.output
    cases hrun : run values s.output with
    | error e out =>
      simp only [hrun] at hexecute
      exact fun _ => ⟨s, hexecute.2, hexecute.1.symm⟩
    | ok results out =>
      simp only [hrun] at hexecute
      exact ⟨_, hexecute.2, rfl, rfl, hexecute.1.symm⟩

/-! ### Reading what can be executed -/

theorem exists_readToken {s s' : Session T} {t : Token} {u : Unit} {start : Nat}
    (hdict : s.dictionary.Sound) (ht : Elementary s.dictionary t) (hd : d.Sound noWords)
    (htracks : d.Tracks noCalls stack "" v s.stack out) (hadmits : d.graph.Admits stack)
    (h : executeToken t start s = .ok u s') (position : Nat) :
    s'.dictionary = s.dictionary ∧ ∃ e v', readToken s.dictionary t position d = .ok () e ∧
      e.Sound noWords ∧ e.graph.Admits stack ∧ e.Tracks noCalls stack "" v' s'.stack out := by
  cases ht with
  | @literal value hn hv =>
    rw [executeToken_of_literal hn hv] at h
    cases h
    have hliteral := Draft.literal_apply d value
    have hperforms := Draft.performs_literal counted_noCalls hd value
    obtain ⟨sound, -⟩ := hd.literal hliteral
    obtain ⟨v', htracks'⟩ : ∃ v', (d.extend (.literal value) []).Tracks noCalls stack "" v'
        (value :: s.stack) out := hperforms.pushes htracks .nil
    refine ⟨rfl, _, v', ?_, sound, hperforms.admits hd sound hadmits, htracks'⟩
    unfold readToken
    rw [hn]
    exact Action.bind_eq_ok.mpr ⟨value, d, Action.ofExcept_eq_ok.mpr ⟨hv, rfl⟩,
      Action.discard_eq_ok.mpr ⟨_, hliteral⟩⟩
  | @primitive id w p hn hk =>
    have hp := hdict.builtin (word?_of_named hn) hk
    rw [executeToken_of_primitive hn hk] at h
    obtain ⟨values, rest, hs, hfits⟩ := fits_of_executePrimitive h
    rw [executePrimitive_eq hs hfits] at h
    rw [hs] at htracks
    have htypes : ∀ type ∈ List.replicate p.inputArity p.operandType, Askable type := by
      intro type htype
      rw [List.eq_of_mem_replicate htype]
      exact hp.askable
    obtain ⟨os, d₁, hpop⟩ := htracks.exists_popAll hd counted_noCalls hadmits hfits htypes p.name
      position
    obtain ⟨sound₁, -, accepts⟩ := hd.popAll hpop
    obtain ⟨v₁, htracks₁, hreads, -⟩ := htracks.popAll hfits.length_eq.symm hpop
    have hadmits₁ : d₁.graph.Admits stack :=
      htracks.admits_popAll hd counted_noCalls hadmits hfits hpop
    have happly : Draft.apply p position d = .ok _ _ :=
      Draft.apply_eq_ok.mpr ⟨os, d₁, hpop, rfl, rfl⟩
    obtain ⟨sound, -⟩ := hd.apply hp happly
    have hperforms := Draft.performs_primitive counted_noCalls hp sound₁ accepts
    have hpushes := hperforms.pushes htracks₁ hreads
    cases he : p.eval values.reverse with
    | error e =>
      simp only [he] at h
      cases h
    | ok results =>
      simp only [he, Action.ofExcept_ok] at h hpushes
      cases h
      obtain ⟨v', htracks'⟩ := hpushes
      refine ⟨rfl, _, v', ?_, sound, hperforms.admits sound₁ sound hadmits₁, htracks'⟩
      unfold readToken compileWord
      rw [hn]
      simp only [hk]
      exact Action.discard_eq_ok.mpr ⟨_, happly⟩

/-- Tokens that can be executed one after the other can be read one after the other. The types that
arguments are given on the way are those of values on the stack at the start. -/
theorem exists_readTokens {s s' : Session T} {tokens : List Token} {u : Unit} {start : Nat}
    (hdict : dictionary.Sound) (htokens : ∀ t ∈ tokens, Elementary dictionary t)
    (hs : s.dictionary = dictionary) (hd : d.Sound noWords)
    (htracks : d.Tracks noCalls stack "" v s.stack out) (hadmits : d.graph.Admits stack)
    (h : executeTokens tokens start s = .ok u s') (place : Nat) :
    ∃ e, readTokens dictionary (tokens.zipIdx place) d = .ok () e ∧ e.graph.Admits stack := by
  induction tokens generalizing s d v start place with
  | nil => exact ⟨d, rfl, hadmits⟩
  | cons t tokens ih =>
    subst hs
    rw [executeTokens_cons] at h
    obtain ⟨_, s₁, h₁, h⟩ := Action.bind_eq_ok.mp h
    obtain ⟨hdictionary, d₁, v₁, hread₁, sound₁, hadmits₁, htracks₁⟩ :=
      exists_readToken hdict (htokens t List.mem_cons_self) hd htracks hadmits h₁ place
    obtain ⟨e, hread, hadmits'⟩ := ih (fun t' ht' => htokens t' (List.mem_cons_of_mem t ht'))
      hdictionary sound₁ htracks₁ hadmits₁ h (place + 1)
    refine ⟨e, ?_, hadmits'⟩
    rw [List.zipIdx_cons, readTokens, Action.forM_cons, Action.bind_of_ok hread₁]
    exact hread

/-! ### Type errors -/

theorem names_readToken {t : Token} (ht : Elementary dictionary t) (position : Nat) :
    (readToken dictionary t position).Keeps (fun _ => True) (Names position) := by
  unfold readToken
  cases ht with
  | @literal value hn hv =>
    rw [hn, hv]
    exact .bind (.pure value) fun value => .discard fun d _ => by rw [Draft.literal_apply]; trivial
  | @primitive id w p hn hk =>
    rw [hn]
    simp only [compileWord, hk]
    exact .discard (Draft.names_apply p position)

/-- A type error is that of the token at its position: the tokens up to there cannot be read. -/
theorem readTokens_take_of_error {tokens : List Token} {word : String} {place position : Nat}
    {expected actual : ValueType} (htokens : ∀ t ∈ tokens, Elementary dictionary t)
    (h : readTokens dictionary (tokens.zipIdx place) d =
      .error (.typeMismatch word position expected actual) e) :
    ∃ index, position = place + index ∧ index < tokens.length ∧ ∀ final,
      readTokens dictionary ((tokens.take (index + 1)).zipIdx place) d ≠ .ok () final := by
  induction tokens generalizing d place with
  | nil => cases h
  | cons t tokens ih =>
    have ht := htokens t List.mem_cons_self
    rw [List.zipIdx_cons] at h
    rcases Action.bind_eq_error.mp h with h₁ | ⟨_, d₁, h₁, hrest⟩
    · obtain ⟨-, he⟩ := (names_readToken ht place).error trivial h₁
      obtain rfl := he word position expected actual rfl
      refine ⟨0, rfl, Nat.zero_lt_succ _, fun final hfinal => ?_⟩
      obtain ⟨_, d₁, hok, -⟩ := Action.bind_eq_ok.mp hfinal
      rw [h₁] at hok
      cases hok
    · obtain ⟨index, rfl, hlt, hne⟩ :=
        ih (fun t' ht' => htokens t' (List.mem_cons_of_mem t ht')) hrest
      refine ⟨index + 1, by omega, Nat.succ_lt_succ hlt, fun final hfinal => ?_⟩
      rw [List.take_succ_cons, List.zipIdx_cons] at hfinal
      obtain ⟨_, d₂, h₂, hfinal⟩ := Action.bind_eq_ok.mp hfinal
      cases h₁.symm.trans h₂
      exact hne final hfinal

/-! ### Exactness -/

section Body
variable {s s' : Session T} {body : List Token} {u : Unit} {start : Nat}

theorem exists_readBody (hdict : s.dictionary.Sound)
    (hbody : ∀ t ∈ body, Elementary s.dictionary t)
    (h : executeTokens body start { s with stack } = .ok u s') :
    ∃ e, readBody s.dictionary body {} = .ok () e ∧ e.graph.Admits stack := by
  have hadmits : ({} : Draft).graph.Admits stack := fun hn => by simp [Graph.node?] at hn
  have htracks := Draft.Tracks.empty noCalls stack ""
  have hs : ({ s with stack } : Session T).dictionary = s.dictionary := rfl
  exact exists_readTokens hdict hbody hs (.empty _) htracks hadmits h 0

/-- A body that has been read fails for no type and for no lack of values, where the stack has the
types that its arguments have been given. -/
theorem failure_of_executeTokens (hdict : s.dictionary.Sound)
    (hbody : ∀ t ∈ body, Elementary s.dictionary t)
    (hread : readBody s.dictionary body {} = .ok u d) (hadmits : d.graph.Admits stack)
    (hsize : d.arguments.size ≤ stack.length) {e : CompileError}
    (h : executeTokens body start { s with stack } = .error e s') :
    Failure e := by
  obtain ⟨sound, -⟩ := sound_readTokens hdict (.empty _) hread
  have hs : ({ s with stack } : Session T).dictionary = s.dictionary := rfl
  have htracks := Draft.Tracks.empty noCalls stack s.output
  have hrun := (follows_elementary T s.dictionary).executeTokens hdict counted_noCalls
    (sound_noCalls _) hbody hs (.empty _) hread htracks hadmits hsize start
  have hyields := typed_evaluate sound.graph counted_noCalls (sound_noCalls _) hadmits d.nodes_eq
  cases heval : d.graph.evaluate noCalls stack s.output with
  | error e' out =>
    simp only [heval, forall_const] at hrun
    obtain ⟨s₁, hs₁, -⟩ := hrun
    cases h.symm.trans hs₁
    exact hyields.error heval
  | ok v out =>
    simp only [heval] at hrun
    obtain ⟨s₁, hs₁, -⟩ := hrun
    cases h.symm.trans hs₁

end Body

/-- For a body of literals and operations the inferred types are exact. A body that is accepted does
not fail for the stack on the stacks whose top values have the types, and does not come to its end on
any other; a body that is turned down for a type at a token gets past this token on no stack. -/
theorem define_exact (hT : T = Machine.target ∨ T = IRModule.target) {target : T.State}
    {s : Session T} (h : Reachable target s) (name : String) {body : List Token}
    (hbody : ∀ t ∈ body, Elementary s.dictionary t) (start : Nat) :
    (∀ s₁, define name body none s = .ok () s₁ →
      ∃ effect, s₁.signature name = .ok effect ∧ ∀ stack,
        (Fits effect.inputs (stack.take effect.inputArity) → ∀ e s',
          executeTokens body start { s with stack } = .error e s' → ¬e.IsMisfit) ∧
        (¬Fits effect.inputs (stack.take effect.inputArity) → ∀ s',
          executeTokens body start { s with stack } ≠ .ok () s')) ∧
    ∀ word position expected actual s₁,
      define name body none s = .error (.typeMismatch word position expected actual) s₁ →
      position < body.length ∧ ∀ stack s',
        executeTokens (body.take (position + 1)) start { s with stack } ≠ .ok () s' := by
  have technical : T.Technical := by
    rcases hT with rfl | rfl
    · exact Machine.technical
    · exact IRModule.technical
  refine ⟨fun s₁ hdefine => ?_, fun word position expected actual s₁ hdefine => ?_⟩
  · obtain ⟨draft, function, target', hread, -, rfl⟩ := define_eq_ok hdefine
    have hf : (draft.toDefinition name body).Sound s.dictionary.vocabulary :=
      sound_toDefinition h.sound hread
    obtain ⟨effect, hs⟩ := hf.exists_signature
    refine ⟨effect, ?_, fun stack => ⟨fun hfits e s' hrun => ?_, fun hfits s' hrun => ?_⟩⟩
    · rw [signature, lookup_defined]
      exact hs
    · have hsize : draft.arguments.size ≤ stack.length := by
        have hl := hfits.length_eq
        rw [List.length_take, ← Signature.inputArity, ← Draft.size_arguments hs] at hl
        omega
      exact not_isMisfit_of_failure (failure_of_executeTokens h.sound hbody hread
        ((hf.admits_iff hs).mpr hfits) hsize hrun)
    · -- A run to the end can be followed while the body is read, which gives the same draft.
      obtain ⟨e, he, hadmits⟩ := exists_readBody h.sound hbody hrun
      cases hread.symm.trans he
      exact hfits ((hf.admits_iff hs).mp hadmits)
  · obtain ⟨draft, hread⟩ := readBody_of_define technical hdefine
    obtain ⟨index, hindex, hlt, hne⟩ := readTokens_take_of_error hbody hread
    obtain rfl : position = index := by omega
    refine ⟨hlt, fun stack s' hrun => ?_⟩
    -- The tokens up to the position would be a body that can be read.
    obtain ⟨e, he, -⟩ := exists_readBody h.sound
      (fun t ht => hbody t (List.mem_of_mem_take ht)) hrun
    exact hne e he

def doubling : List Token := ["dup", "+"].map wordToken

def addingStrings : List Token := ["i>s", "dup", "+", "drop"].map wordToken

theorem define_exact_doubling :
    (∃ s₁, define "twice" doubling none (ofText "") = .ok () s₁ ∧
      ∃ effect, s₁.signature "twice" = .ok effect ∧ ∀ stack,
        (Fits effect.inputs (stack.take effect.inputArity) → ∀ e s',
          executeTokens doubling 0 { ofText "" with stack } = .error e s' → ¬e.IsMisfit) ∧
        (¬Fits effect.inputs (stack.take effect.inputArity) → ∀ s',
          executeTokens doubling 0 { ofText "" with stack } ≠ .ok () s')) ∧
    ∃ s₁, define "never" addingStrings none (ofText "") =
        .error (.typeMismatch "+" 2 .int32 .string) s₁ ∧ ∀ stack s',
      executeTokens (addingStrings.take 3) 0 { ofText "" with stack } ≠ .ok () s' := by
  have hdoubling : ∀ t ∈ doubling, Elementary (ofText "").dictionary t := by decide +kernel
  have hadding : ∀ t ∈ addingStrings, Elementary (ofText "").dictionary t := by decide +kernel
  have haccepted : define "twice" doubling none (ofText "") = .ok () _ :=
    Action.attempt_eq_ok.mp (by decide +kernel)
  have hrejected : define "never" addingStrings none (ofText "") =
      .error (.typeMismatch "+" 2 .int32 .string) _ :=
    Action.attempt_eq_error.mp (by decide +kernel)
  have hreachable := reachable_ofText ""
  refine ⟨⟨_, haccepted, ?_⟩, _, hrejected, ?_⟩
  · exact (define_exact (.inl rfl) hreachable "twice" hdoubling 0).1 _ haccepted
  · exact ((define_exact (.inl rfl) hreachable "never" hadding 0).2 _ _ _ _ _ hrejected).2

end Session
end StackEffect
