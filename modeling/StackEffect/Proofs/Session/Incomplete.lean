import StackEffect.Proofs.Cursor.Last
import StackEffect.Proofs.Cursor.Later
import StackEffect.Proofs.Session.Abandoning

/-!
Texts that are asked to go on. What the interactive reader thinks of a text agrees with what a session
makes of it (`isIncomplete_of_run`), but for names that are words of the reader: a definition whose name
is `;` and a declaration whose name is `)` seem to end with their names, and a request to see `:` or
`extern` seems to start something (`isIncomplete_misled`).
-/
namespace StackEffect

/-- The complaint that a definition or a declaration breaks off. -/
def CompileError.IsCut : CompileError → Prop
  | .unterminatedDefinition _ | .arity _ (.declaration .unterminated) => True
  | _ => False

theorem CompileError.IsCut.isAbrupt {e : CompileError} (h : e.IsCut) : e.IsAbrupt := by
  unfold IsCut at h
  split at h
  · trivial
  · trivial
  · exact h.elim

namespace Cursor
variable {c start after rest : Cursor} {t name : Token} {e : CompileError} {inDefinition : Bool}

/-! ### Phrases that break off -/

theorem not_isCut_of_next (h : c.next = .error e) : ¬e.IsCut := by
  obtain ⟨line, rfl⟩ := next_eq_error h
  exact not_false

theorem not_isCut_of_seePhrase (h : c.seePhrase = .error e) : ¬e.IsCut := by
  rcases Except.bind_eq_error.mp h with hname | ⟨read, -, h⟩
  · exact not_isCut_of_next hname
  · cases read with
    | none =>
      cases h
      exact not_false
    | some x => cases h

/-- A definition that cannot be read breaks off in front of its name. -/
theorem next_of_cut_definition (h : c.definitionPhrase = .error e) (he : e.IsCut) :
    c.next = .ok none := by
  rcases Except.bind_eq_error.mp h with hname | ⟨read, hname, h⟩
  · exact absurd he (not_isCut_of_next hname)
  · cases read with
    | none => exact hname
    | some x =>
      dsimp only at h
      split at h <;> cases h

theorem letters_of_cut_declaration (h : c.declarationPhrase = .error e) (he : e.IsCut) :
    ∃ name named bracket opened, c.nextWord = some (name, named) ∧
      named.nextWord = some (bracket, opened) ∧ bracket.text = "(" ∧
      opened.typeLetters false = .error e := by
  unfold declarationPhrase at h
  split at h
  · cases h
    exact he.elim
  · rename_i name named hname
    split at h
    · cases h
      exact he.elim
    · rename_i bracket opened hbracket
      split_ifs at h with ht
      · rcases Except.bind_eq_error.mp h with hletters | ⟨letters, -, h⟩
        · exact ⟨name, named, bracket, opened, hname, hbracket, ht, hletters⟩
        · cases h
      · cases h
        exact he.elim

/-! ### Definitions -/

theorem isIncomplete_of_word (hn : c.next = .ok (some (t, after))) (hcolon : t.isWord ":" = false)
    (hexternal : t.isWord "extern" = false) (hend : t.isWord ";" = false) :
    c.isIncomplete inDefinition = after.isIncomplete inDefinition := by
  rw [isIncomplete_eq, hn]
  simp [hcolon, hexternal, hend]

theorem isIncomplete_of_colon (hn : c.next = .ok (some (t, after))) (hcolon : t.isWord ":" = true) :
    c.isIncomplete inDefinition = after.isIncomplete true := by
  rw [isIncomplete_eq, hn]
  exact if_pos hcolon

theorem isIncomplete_of_name (hn : c.next = .ok (some (name, after))) :
    c.isIncomplete true = after.isIncomplete (!name.isWord ";") := by
  rw [isIncomplete_eq, hn]
  by_cases hcolon : name.isWord ":" = true
  · simp [hcolon, Token.isWord_of_ne hcolon (by decide : ":" ≠ ";")]
  · cases hend : name.isWord ";" <;> simp [hcolon, hend]

theorem isIncomplete_of_body {definition : String} {body : List Token}
    (h : c.bodyTokens definition = (body, .ok rest)) (inDefinition : Bool) :
    c.isIncomplete inDefinition = rest.isIncomplete false := by
  fun_induction bodyTokens definition c generalizing body with
  | case1 => cases h
  | case2 => cases h
  | case3 c t after hn ht =>
    cases h
    rw [isIncomplete_eq, hn]
    simp [ht, Token.isWord_of_ne ht (by decide : ";" ≠ ":")]
  | case4 => cases h
  | case5 c t after hn ht ht' body' r hb ih =>
    cases h
    simp only [Bool.or_eq_true, not_or, Bool.not_eq_true] at ht ht'
    rw [isIncomplete_of_word hn ht'.1 ht'.2 ht]
    exact ih hb

theorem isIncomplete_of_cut_body {definition : String} {body : List Token}
    (h : c.bodyTokens definition = (body, .error e)) (he : e.IsCut) (inDefinition : Bool) :
    c.isIncomplete inDefinition = inDefinition := by
  fun_induction bodyTokens definition c generalizing body with
  | case1 c e' hn =>
    cases h
    exact absurd he (not_isCut_of_next hn)
  | case2 c hn => rw [isIncomplete_eq, hn]
  | case3 => cases h
  | case4 =>
    cases h
    exact he.elim
  | case5 c t after hn ht ht' body' r hb ih =>
    cases h
    simp only [Bool.or_eq_true, not_or, Bool.not_eq_true] at ht ht'
    rw [isIncomplete_of_word hn ht'.1 ht'.2 ht]
    exact ih hb

/-! ### Declarations -/

/-- Whether the text stops early behind the next closing bracket, if there is one. -/
def behindBracket (c : Cursor) : Option Bool := (c.pastWord? ")").map (·.isIncomplete false)

theorem isIncomplete_of_external (hn : c.next = .ok (some (t, after)))
    (hexternal : t.isWord "extern" = true) :
    c.isIncomplete false = after.behindBracket.getD true := by
  rw [isIncomplete_eq, hn, behindBracket]
  simp only [Token.isWord_of_ne hexternal (by decide : "extern" ≠ ":"),
    Token.isWord_of_ne hexternal (by decide : "extern" ≠ ";"), hexternal]
  cases after.pastWord? ")" <;> rfl

theorem nextWord_eq_some : c.nextWord = some (t, after) ↔
    ∃ raw, c.rawWord = some (t, raw) ∧ after = raw.later 1 0 := by
  unfold nextWord
  rw [Option.map_eq_some_iff]
  constructor
  · rintro ⟨⟨t', raw⟩, hr, h⟩
    cases h
    exact ⟨raw, hr, rfl⟩
  · rintro ⟨raw, hr, rfl⟩
    exact ⟨(t, raw), hr, rfl⟩

theorem behindBracket_later (k n : Nat) (c : Cursor) :
    (c.later k n).behindBracket = c.behindBracket := by
  unfold behindBracket
  rw [pastWord?_later]
  cases c.pastWord? ")" with
  | none => rfl
  | some behind => exact congrArg some (isIncomplete_later k n false behind)

theorem behindBracket_of_word (h : c.nextWord = some (t, after)) : c.behindBracket =
    if t.text = ")" then some (after.isIncomplete false) else after.behindBracket := by
  obtain ⟨raw, hr, rfl⟩ := nextWord_eq_some.mp h
  rw [isIncomplete_later, behindBracket_later, behindBracket, pastWord?_eq, hr]
  dsimp only
  split_ifs <;> rfl

theorem behindBracket_of_end (h : c.nextWord = none) : c.behindBracket = none := by
  have hr : c.rawWord = none := Option.map_eq_none_iff.mp h
  rw [behindBracket, pastWord?_eq, hr]
  rfl

theorem behindBracket_of_letters {separated : Bool} {inputs outputs : List String}
    (h : c.typeLetters separated = .ok (inputs, outputs, rest)) :
    c.behindBracket = some (rest.isIncomplete false) := by
  fun_induction typeLetters separated c generalizing inputs outputs with
  | case1 => cases h
  | case2 c t after hn ht =>
    cases h
    rw [behindBracket_of_word hn, if_pos ht]
  | case3 => cases h
  | case4 => cases h
  | case5 separated c t after hn ht ht' hs ih =>
    rw [behindBracket_of_word hn, if_neg ht]
    exact ih h
  | case6 separated c t after hn ht ht' ih =>
    rw [behindBracket_of_word hn, if_neg ht]
    cases hr : after.typeLetters separated with
    | error e => simp [hr, Except.map] at h
    | ok read =>
      rw [hr] at h
      cases separated <;> cases h <;> exact ih hr

theorem behindBracket_of_cut {separated : Bool} (h : c.typeLetters separated = .error e)
    (he : e.IsCut) : c.behindBracket = none := by
  fun_induction typeLetters separated c with
  | case1 separated c hn => exact behindBracket_of_end hn
  | case2 => cases h
  | case3 =>
    cases h
    exact he.elim
  | case4 =>
    cases h
    exact he.elim
  | case5 separated c t after hn ht ht' hs ih =>
    rw [behindBracket_of_word hn, if_neg ht]
    exact ih h
  | case6 separated c t after hn ht ht' ih =>
    rw [behindBracket_of_word hn, if_neg ht]
    exact ih (Except.map_eq_error.mp h)

theorem isIncomplete_of_bracket (h : c.nextWord = some (t, after)) (ht : t.text = "(") :
    c.isIncomplete false = after.behindBracket.getD false := by
  obtain ⟨raw, hr, rfl⟩ := nextWord_eq_some.mp h
  have hq : (c.skipWhile isBlank).rest.head? ≠ some '"' := by
    intro hhead
    obtain ⟨-, rfl, -⟩ := rawWord_eq_some.mp hr
    cases hrest : (c.skipWhile isBlank).rest with
    | nil => simp [hrest] at hhead
    | cons x rest =>
      rw [hrest] at hhead ht
      cases hhead
      have hink : isInk '"' = true := by decide
      have hlist := congrArg String.toList ht
      simp [hink] at hlist
  have hnext : c.next = (raw.skipPast ")").next := by
    rw [next_eq, if_neg hq, rawWord_skipBlank, hr]
    simp [afterComment?, ht]
  rw [isIncomplete_eq, hnext, ← isIncomplete_eq, behindBracket_later, skipPast, behindBracket]
  cases raw.pastWord? ")" with
  | none =>
    rw [isIncomplete_eq, next_of_nil (by rfl)]
    rfl
  | some behind => rfl

/-! ### Phrases -/

/-- Whether the name that the next phrase gives to a word is taken for the end of the phrase. -/
def closesItself (c : Cursor) : Bool :=
  match c.next with
  | .ok (some (t, after)) =>
    if t.isWord ":" then
      match after.next with
      | .ok (some (name, _)) => name.isWord ";"
      | _ => false
    else if t.isWord "extern" then
      match after.nextWord with
      | some (name, _) => name.text = ")"
      | none => false
    else false
  | _ => false

theorem behindBracket_of_name {named opened : Cursor} {bracket : Token}
    (hname : c.nextWord = some (name, named)) (hbracket : named.nextWord = some (bracket, opened))
    (ht : bracket.text = "(") : c.behindBracket =
      if name.text = ")" then some (opened.behindBracket.getD false) else opened.behindBracket := by
  have hopen : ¬bracket.text = ")" := by simp [ht]
  rw [behindBracket_of_word hname, isIncomplete_of_bracket hbracket ht,
    behindBracket_of_word hbracket, if_neg hopen]

/-- A phrase that is read to its end makes no difference to whether the text stops early, unless it
asks to see a word that seems to start something. -/
theorem isIncomplete_of_phrase {sees : Token → Bool} {p : Phrase}
    (h : c.nextPhrase sees = .ok (some (p, rest))) (hp : p.fault? = none)
    (hsee : p ≠ .see ":") (hsee' : p ≠ .see "extern") :
    c.isIncomplete false = rest.isIncomplete false := by
  have hplain : ∀ {c after : Cursor} {t : Token}, c.next = .ok (some (t, after)) →
      t.isWord ":" = false → t.isWord "extern" = false →
      c.isIncomplete false = after.isIncomplete false := by
    intro c after t hn hcolon hexternal
    rw [isIncomplete_eq, hn]
    simp [hcolon, hexternal]
  cases reads_of_nextPhrase h with
  | definition hn hcolon hname hbody =>
    rw [isIncomplete_of_colon hn hcolon, isIncomplete_of_name hname]
    exact isIncomplete_of_body hbody _
  | unended => cases hp
  | declaration hn hcolon hexternal hname hbracket ht hletters =>
    rw [isIncomplete_of_external hn hexternal, behindBracket_of_name hname hbracket ht,
      behindBracket_of_letters hletters]
    split_ifs <;> rfl
  | see hn hcolon hexternal hsees hname =>
    rw [hplain hn hcolon hexternal]
    simp only [ne_eq, Phrase.see.injEq] at hsee hsee'
    exact hplain hname (by simp [Token.isWord, hsee]) (by simp [Token.isWord, hsee'])
  | token hn hcolon hexternal => exact hplain hn hcolon hexternal

/-- A text stops early where a body breaks off, unless the name closes the definition. -/
theorem isIncomplete_of_cut_phrase {sees : Token → Bool} {p : Phrase}
    (h : c.nextPhrase sees = .ok (some (p, rest))) (hp : p.fault? = some e) (he : e.IsCut) :
    c.isIncomplete false = !c.closesItself := by
  cases reads_of_nextPhrase h with
  | definition => cases hp
  | unended hn hcolon hname hbody =>
    cases hp
    rw [isIncomplete_of_colon hn hcolon, isIncomplete_of_name hname,
      isIncomplete_of_cut_body hbody he, closesItself, hn]
    simp [hcolon, hname]
  | declaration => cases hp
  | see => cases hp
  | token => cases hp

theorem isIncomplete_of_unread {sees : Token → Bool} (h : c.nextPhrase sees = .error e)
    (he : e.IsCut) : c.isIncomplete false = !c.closesItself := by
  rcases Except.bind_eq_error.mp h with hn | ⟨read, hn, h⟩
  · exact absurd he (not_isCut_of_next hn)
  cases read with
  | none => cases h
  | some x =>
    rcases Except.bind_eq_error.mp h with hp | ⟨phrase, -, h⟩
    · unfold phraseFrom at hp
      split_ifs at hp with hcolon hexternal hsees
      · have hname := next_of_cut_definition hp he
        rw [isIncomplete_of_colon hn hcolon, isIncomplete_eq, hname, closesItself, hn]
        simp [hcolon, hname]
      · obtain ⟨name, named, bracket, opened, hname, hbracket, ht, hletters⟩ :=
          letters_of_cut_declaration hp he
        rw [isIncomplete_of_external hn hexternal, behindBracket_of_name hname hbracket ht,
          behindBracket_of_cut hletters he, closesItself, hn]
        by_cases hclose : name.text = ")" <;> simp [hcolon, hexternal, hname, hclose]
      · exact absurd he (not_isCut_of_seePhrase hp)
    · cases h

end Cursor

namespace Session
variable {T : Target} {s s' : Session T} {e : CompileError}

/-- What a run gets through makes no difference to whether the text stops early. -/
theorem isIncomplete_halt (c : Cursor) (s : Session T)
    (hcolon : .see ":" ∉ passed c s) (hexternal : .see "extern" ∉ passed c s) :
    c.isIncomplete false = (halt c s).1.isIncomplete false := by
  fun_induction runFrom c s with
  | case1 c s e hn => rw [halt_of_error hn]
  | case2 c s hn => rw [halt_of_end hn]
  | case3 c s p rest hn e s' hp => rw [halt_of_phrase hn, hp]
  | case4 c s p rest hn u s' hp ih =>
    rw [passed_of_perform hn hp, List.mem_cons, not_or] at hcolon hexternal
    rw [halt_of_phrase hn, hp, Cursor.isIncomplete_of_phrase hn (fault?_of_perform hp)
      (Ne.symm hcolon.1) (Ne.symm hexternal.1)]
    exact ih hcolon.2 hexternal.2

/-- The interactive reader asks for no more of a text that runs to its end, and it asks for more of one
that breaks off in the middle of a definition or a declaration, unless the name that is given there is
`;` or `)`. In front of that, the text must not have asked to see the word `:` or `extern`. -/
theorem isIncomplete_of_run (hs : Live s) {text : String}
    (hcolon : .see ":" ∉ passed (.ofText text) s)
    (hexternal : .see "extern" ∉ passed (.ofText text) s) :
    (∀ s', run text s = .ok () s' → isIncomplete text = false) ∧
      ∀ e s', run text s = .error e s' → e.IsCut →
        isIncomplete text = !(halt (.ofText text) s).1.closesItself := by
  obtain ⟨I, hI, hholds, hquiet⟩ := hs.tidy
  obtain ⟨hholds, -⟩ := quiet_halt hI (c := .ofText text) hholds hquiet
  have hends := ends_halt (.ofText text) s
  have hsame : isIncomplete text = _ := isIncomplete_halt (.ofText text) s hcolon hexternal
  rw [hsame]
  refine ⟨fun s' hrun => ?_, fun e s' hrun he => ?_⟩
  · obtain ⟨s₁, hfrom, -⟩ := run_eq_ok.mp hrun
    rw [hfrom] at hends
    cases hends with
    | finished hn => rw [Cursor.isIncomplete_eq, Cursor.next_of_nextPhrase_end hn]
  · obtain ⟨s₁, hfrom, -⟩ := run_eq_error.mp hrun
    rw [hfrom] at hends
    cases hends with
    | unread hn => exact Cursor.isIncomplete_of_unread hn he
    | failed hn hp =>
      rcases perform_error hI.technical (hI.sound hholds) hp with hfault | habrupt
      · exact Cursor.isIncomplete_of_cut_phrase hn hfault he
      · exact absurd he.isAbrupt habrupt

def halving : Session Machine.target := ofText ": half 2 / ;"

def wholeText : String := "6 half . see half"

def cutText : String := "6 half . see half extern root ( i --"

theorem isIncomplete_of_run_halving :
    ((run wholeText).attempt halving).1 = .ok () ∧ isIncomplete wholeText = false ∧
      ((run cutText).attempt halving).1 = .error (.arity "extern" (.declaration .unterminated)) ∧
      isIncomplete cutText = true := by
  have hs : Live halving := .executing (reachable_ofText _)
  have hwhole : ((run wholeText).attempt halving).1 = .ok () := by decide +kernel
  have hcut : ((run cutText).attempt halving).1 =
      .error (.arity "extern" (.declaration .unterminated)) := by decide +kernel
  have hopen : (halt (.ofText cutText) halving).1.closesItself = false := by decide +kernel
  refine ⟨hwhole, ?_, hcut, ?_⟩
  · exact (isIncomplete_of_run hs (by decide +kernel) (by decide +kernel)).1 _
      (Action.attempt_eq_ok.mp hwhole)
  · refine ((isIncomplete_of_run hs (by decide +kernel) (by decide +kernel)).2 _ _
      (Action.attempt_eq_error.mp hcut) trivial).trans ?_
    rw [hopen]
    rfl

/-- A definition and a declaration that break off and are not asked to go on, because of their names,
and a text that is asked to go on although it runs to its end. -/
theorem isIncomplete_misled :
    (((run ": ; 1").attempt halving).1 = .error (.unterminatedDefinition ";") ∧
      isIncomplete ": ; 1" = false) ∧
    (((run "extern ) ( i").attempt halving).1 =
        .error (.arity "extern" (.declaration .unterminated)) ∧
      isIncomplete "extern ) ( i" = false) ∧
    ((run ": : 1 ; see :").attempt halving).1 = .ok () ∧ isIncomplete ": : 1 ; see :" = true := by
  decide +kernel

end Session
end StackEffect
