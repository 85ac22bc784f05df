import StackEffect.Phrase
import StackEffect.Proofs.Sequencing

/-!
What a text can fail for while it is read. A phrase that cannot be read, or a body without an end, is
the fault of the text alone (`nextPhrase_error`, `fault_of_nextPhrase`).
-/
namespace StackEffect

def CompileError.IsUnreadable : CompileError → Prop
  | .unterminatedString _ | .unterminatedDefinition _ | .unknownToken _
  | .unsupported (.opensInside ..) | .arity _ (.declaration _) => True
  | _ => False

/-- What stands in the way of the end of a body. -/
def Phrase.fault? : Phrase → Option CompileError
  | definition _ _ fault => fault
  | declaration .. | see _ | token _ => none

namespace Cursor
variable {c : Cursor} {sees : Token → Bool} {e : CompileError}

/-- The next token cannot be read only if it is a string without an end. -/
theorem next_eq_error (h : c.next = .error e) : ∃ line, e = .unterminatedString line := by
  fun_induction next c with
  | case1 c start hq =>
    have hstring := Except.map_eq_error.mp h
    unfold readString at hstring
    dsimp only at hstring
    split at hstring <;> cases hstring
    exact ⟨_, rfl⟩
  | case2 => cases h
  | case3 c start hq t after hr behind hc ih => exact ih h
  | case4 => cases h

theorem next_error (h : c.next = .error e) : e.IsUnreadable := by
  obtain ⟨line, rfl⟩ := next_eq_error h
  trivial

theorem bodyTokens_error {name : String} (h : (c.bodyTokens name).2 = .error e) :
    e.IsUnreadable := by
  fun_induction bodyTokens name c with
  | case1 c e' hn =>
    cases h
    exact next_error hn
  | case2 =>
    cases h
    trivial
  | case3 => cases h
  | case4 =>
    cases h
    trivial
  | case5 c t after hn ht ht' body rest hb ih => exact ih (by simpa [hb] using h)

theorem definitionPhrase_error (h : c.definitionPhrase = .error e) : e.IsUnreadable := by
  rcases Except.bind_eq_error.mp h with h | ⟨read, -, h⟩
  · exact next_error h
  · cases read with
    | none =>
      cases h
      trivial
    | some x =>
      simp only at h
      split at h
      · cases h
      · cases h

theorem typeLetters_error {separated : Bool} (h : c.typeLetters separated = .error e) :
    ∃ fault, e = declarationFault fault := by
  fun_induction typeLetters separated c with
  | case1 =>
    cases h
    exact ⟨_, rfl⟩
  | case2 => cases h
  | case3 =>
    cases h
    exact ⟨_, rfl⟩
  | case4 =>
    cases h
    exact ⟨_, rfl⟩
  | case5 separated c t after hn ht ht' hs ih => exact ih h
  | case6 separated c t after hn ht ht' ih => exact ih (Except.map_eq_error.mp h)

theorem declarationPhrase_error (h : c.declarationPhrase = .error e) :
    ∃ fault, e = declarationFault fault := by
  unfold declarationPhrase at h
  split at h
  · cases h
    exact ⟨_, rfl⟩
  · split at h
    · cases h
      exact ⟨_, rfl⟩
    · split_ifs at h
      · rcases Except.bind_eq_error.mp h with h | ⟨letters, -, h⟩
        · exact typeLetters_error h
        · cases h
      · cases h
        exact ⟨_, rfl⟩

theorem seePhrase_error (h : c.seePhrase = .error e) : e.IsUnreadable := by
  rcases Except.bind_eq_error.mp h with h | ⟨read, -, h⟩
  · exact next_error h
  · cases read with
    | none =>
      cases h
      trivial
    | some x => cases h

/-- What cannot be read as a phrase is the fault of the text. -/
theorem nextPhrase_error (h : c.nextPhrase sees = .error e) : e.IsUnreadable := by
  rcases Except.bind_eq_error.mp h with h | ⟨read, -, h⟩
  · exact next_error h
  · cases read with
    | none => cases h
    | some x =>
      rcases Except.bind_eq_error.mp h with h | ⟨phrase, -, h⟩
      · unfold phraseFrom at h
        split_ifs at h
        · exact definitionPhrase_error h
        · obtain ⟨fault, rfl⟩ := declarationPhrase_error h
          trivial
        · exact seePhrase_error h
      · cases h

theorem next_of_nextPhrase_end (h : c.nextPhrase sees = .ok none) : c.next = .ok none := by
  obtain ⟨read, hread, h⟩ := Except.bind_eq_ok.mp h
  cases read with
  | none => exact hread
  | some x =>
    obtain ⟨phrase, -, h⟩ := Except.bind_eq_ok.mp h
    cases h

/-! ### What is read -/

/-- How a phrase is read that starts at the cursor, and what follows it. -/
inductive Reads (sees : Token → Bool) (c : Cursor) : Phrase → Cursor → Prop
  | definition {colon name : Token} {start after rest : Cursor} {body : List Token} :
      c.next = .ok (some (colon, start)) → colon.isWord ":" = true →
      start.next = .ok (some (name, after)) → after.bodyTokens name.text = (body, .ok rest) →
      Reads sees c (.definition name.text body none) rest
  | unended {colon name : Token} {start after : Cursor} {body : List Token} {fault : CompileError} :
      c.next = .ok (some (colon, start)) → colon.isWord ":" = true →
      start.next = .ok (some (name, after)) → after.bodyTokens name.text = (body, .error fault) →
      Reads sees c (.definition name.text body (some fault)) after
  | declaration {first name bracket : Token} {start named opened rest : Cursor}
      {inputs outputs : List String} :
      c.next = .ok (some (first, start)) → first.isWord ":" = false →
      first.isWord "extern" = true → start.nextWord = some (name, named) →
      named.nextWord = some (bracket, opened) → bracket.text = "(" →
      opened.typeLetters false = .ok (inputs, outputs, rest) →
      Reads sees c (.declaration name.text inputs outputs) rest
  | see {first name : Token} {start rest : Cursor} :
      c.next = .ok (some (first, start)) → first.isWord ":" = false →
      first.isWord "extern" = false → sees first = true → start.next = .ok (some (name, rest)) →
      Reads sees c (.see name.text) rest
  | token {t : Token} {rest : Cursor} :
      c.next = .ok (some (t, rest)) → t.isWord ":" = false → t.isWord "extern" = false →
      sees t = false → Reads sees c (.token t) rest

theorem reads_of_nextPhrase {p : Phrase} {rest : Cursor}
    (h : c.nextPhrase sees = .ok (some (p, rest))) : Reads sees c p rest := by
  obtain ⟨read, hfirst, h⟩ := Except.bind_eq_ok.mp h
  cases read with
  | none => cases h
  | some x =>
    obtain ⟨first, start⟩ := x
    obtain ⟨phrase, hphrase, h⟩ := Except.bind_eq_ok.mp h
    cases h
    unfold phraseFrom at hphrase
    split_ifs at hphrase with hcolon hexternal hsees
    · obtain ⟨read, hname, hphrase⟩ := Except.bind_eq_ok.mp hphrase
      cases read with
      | none => cases hphrase
      | some x =>
        dsimp only at hphrase
        split at hphrase
        · rename_i hbody
          cases hphrase
          exact .definition hfirst hcolon hname hbody
        · rename_i hbody
          cases hphrase
          exact .unended hfirst hcolon hname hbody
    · unfold declarationPhrase at hphrase
      split at hphrase
      · cases hphrase
      · rename_i hname
        split at hphrase
        · cases hphrase
        · rename_i hbracket
          split_ifs at hphrase with htext
          obtain ⟨⟨inputs, outputs, rest⟩, hletters, hphrase⟩ := Except.bind_eq_ok.mp hphrase
          cases hphrase
          exact .declaration hfirst (Bool.eq_false_iff.mpr hcolon) hexternal hname hbracket htext
            hletters
    · obtain ⟨read, hname, hphrase⟩ := Except.bind_eq_ok.mp hphrase
      cases read with
      | none => cases hphrase
      | some x =>
        cases hphrase
        exact .see hfirst (Bool.eq_false_iff.mpr hcolon) (Bool.eq_false_iff.mpr hexternal) hsees hname
    · cases hphrase
      exact .token hfirst (Bool.eq_false_iff.mpr hcolon) (Bool.eq_false_iff.mpr hexternal)
        (Bool.eq_false_iff.mpr hsees)

theorem Reads.nextPhrase_eq {p : Phrase} {rest : Cursor} (h : Reads sees c p rest) :
    c.nextPhrase sees = .ok (some (p, rest)) := by
  have hfirst : ∀ {t start}, c.next = .ok (some (t, start)) →
      start.phraseFrom sees t = .ok (p, rest) → c.nextPhrase sees = .ok (some (p, rest)) :=
    fun hn hp => Except.bind_eq_ok.mpr ⟨_, hn, Except.bind_eq_ok.mpr ⟨_, hp, rfl⟩⟩
  cases h with
  | definition hn hcolon hname hbody =>
    refine hfirst hn ((if_pos hcolon).trans (Except.bind_eq_ok.mpr ⟨_, hname, ?_⟩))
    simp only [hbody]
    rfl
  | unended hn hcolon hname hbody =>
    refine hfirst hn ((if_pos hcolon).trans (Except.bind_eq_ok.mpr ⟨_, hname, ?_⟩))
    simp only [hbody]
    rfl
  | declaration hn hcolon hexternal hname hbracket htext hletters =>
    refine hfirst hn ?_
    simp only [phraseFrom, hcolon, hexternal, declarationPhrase, hname, hbracket, htext, if_true,
      hletters]
    rfl
  | see hn hcolon hexternal hsees hname =>
    refine hfirst hn ?_
    simp only [phraseFrom, hcolon, hexternal, hsees, seePhrase, hname]
    rfl
  | token hn hcolon hexternal hsees =>
    refine hfirst hn ?_
    simp only [phraseFrom, hcolon, hexternal, hsees]
    rfl

theorem fault_of_nextPhrase {p : Phrase} {rest : Cursor}
    (h : c.nextPhrase sees = .ok (some (p, rest))) (hp : p.fault? = some e) : e.IsUnreadable := by
  cases reads_of_nextPhrase h with
  | definition => cases hp
  | unended hn hcolon hname hbody =>
    cases hp
    exact bodyTokens_error (congrArg Prod.snd hbody)
  | declaration => cases hp
  | see => cases hp
  | token => cases hp

end Cursor
end StackEffect
