import StackEffect.Proofs.Cursor
import StackEffect.Proofs.Phrase

/-!
The end of a text. Reading leaves the place behind the last character where it is (`last_nextPhrase`),
and what comes between two tokens does not count as one (`consumed_afterComment?`).
-/
namespace StackEffect.Cursor
variable {c after rest : Cursor} {t : Token}

/-- The place behind the last character. -/
def last (c : Cursor) : Place := c.place.afterAll c.rest

@[simp] theorem last_count (c : Cursor) : c.count.last = c.last := rfl

theorem last_advance {seen rest : List Char} (h : c.rest = seen ++ rest) :
    (c.advance seen rest).last = c.last := by
  simp only [last, advance, h, Place.afterAll_append]

@[simp] theorem last_skipWhile (p : Char → Bool) (c : Cursor) : (c.skipWhile p).last = c.last :=
  last_advance List.takeWhile_append_dropWhile.symm

@[simp] theorem last_skipOne (c : Cursor) : c.skipOne.last = c.last :=
  last_advance (List.take_append_drop 1 c.rest).symm

@[simp] theorem last_exhausted (c : Cursor) : c.exhausted.last = c.last :=
  last_advance (List.append_nil c.rest).symm

theorem rawWord_eq_some : c.rawWord = some (t, after) ↔
    (c.skipWhile isBlank).rest ≠ [] ∧
      t = ⟨String.ofList ((c.skipWhile isBlank).rest.takeWhile isInk),
        number? ((c.skipWhile isBlank).rest.takeWhile isInk), (c.skipWhile isBlank).place⟩ ∧
      after = (c.skipWhile isBlank).skipWhile isInk := by
  unfold rawWord
  dsimp only
  split_ifs with h
  · simp [h]
  · simp [h, eq_comm]

theorem last_rawWord (h : c.rawWord = some (t, after)) : after.last = c.last := by
  obtain ⟨-, -, rfl⟩ := rawWord_eq_some.mp h
  simp

theorem last_nextWord (h : c.nextWord = some (t, after)) : after.last = c.last := by
  obtain ⟨⟨t', a⟩, hr, h⟩ := Option.map_eq_some_iff.mp h
  cases h
  exact (last_count a).trans (last_rawWord hr)

theorem last_pastWord? {close : String} (h : c.pastWord? close = some after) :
    after.last = c.last := by
  fun_induction pastWord? close c with
  | case1 => cases h
  | case2 c t b hr ht =>
    cases h
    exact last_rawWord hr
  | case3 c t b hr ht ih => exact (ih h).trans (last_rawWord hr)

theorem last_skipPast (close : String) (c : Cursor) : (c.skipPast close).last = c.last := by
  unfold skipPast
  cases h : c.pastWord? close with
  | none => exact last_exhausted c
  | some after => exact last_pastWord? h

theorem last_afterComment? {word : String} (h : afterComment? word c = some after) :
    after.last = c.last := by
  unfold afterComment? at h
  split_ifs at h
  · cases h
    simp [skipLine]
  · cases h
    exact last_skipPast _ c
  · cases h
    exact last_skipPast _ c

theorem stringBody_suffix (cs : List Char) : stringBody cs <:+ cs := by
  cases cs with
  | nil => exact List.suffix_rfl
  | cons c cs =>
    simp only [stringBody]
    split_ifs
    · exact List.suffix_cons c cs
    · exact List.suffix_rfl

theorem readString_eq_ok (h : c.readString = .ok (t, after)) : ∃ quote behind,
    (stringBody (c.rest.drop 1)).dropWhile (· ≠ '"') = quote :: behind ∧
      t = ⟨"\"" ++ String.ofList ((stringBody (c.rest.drop 1)).takeWhile (· ≠ '"')) ++ "\"",
        some (.str (String.ofList ((stringBody (c.rest.drop 1)).takeWhile (· ≠ '"')))), c.place⟩ ∧
      after = (c.advance (c.rest.take (c.rest.length - behind.length)) behind).count := by
  unfold readString at h
  dsimp only at h
  split at h
  · cases h
  · rename_i quote behind hd
    cases h
    exact ⟨quote, behind, hd, rfl, rfl⟩

theorem last_readString (h : c.readString = .ok (t, after)) : after.last = c.last := by
  obtain ⟨quote, behind, hd, -, rfl⟩ := readString_eq_ok h
  have hsuffix : behind <:+ c.rest :=
    (List.suffix_cons quote behind).trans <| hd ▸ (List.dropWhile_suffix _).trans <|
      (stringBody_suffix _).trans (List.drop_suffix 1 c.rest)
  exact last_advance (List.suffix_iff_eq_append.mp hsuffix).symm

theorem last_next (h : c.next = .ok (some (t, after))) : after.last = c.last := by
  fun_induction next c with
  | case1 c start hq =>
    cases hr : start.readString with
    | error e => simp [hr, Except.map] at h
    | ok read =>
      rw [hr] at h
      cases h
      exact (last_readString hr).trans (last_skipWhile _ c)
  | case2 => cases h
  | case3 c start hq t' a hr behind hc ih =>
    exact (ih h).trans <| (last_afterComment? hc).trans <|
      (last_rawWord hr).trans (last_skipWhile _ c)
  | case4 c start hq t' a hr hc =>
    cases h
    exact (last_rawWord hr).trans (last_skipWhile _ c)

theorem last_bodyTokens {name : String} (h : (c.bodyTokens name).2 = .ok rest) :
    rest.last = c.last := by
  fun_induction bodyTokens name c with
  | case1 => cases h
  | case2 => cases h
  | case3 c t after hn ht =>
    cases h
    exact last_next hn
  | case4 => cases h
  | case5 c t after hn ht ht' body r hb ih => exact (ih (by rw [hb]; exact h)).trans (last_next hn)

theorem last_typeLetters {separated : Bool} {inputs outputs : List String}
    (h : c.typeLetters separated = .ok (inputs, outputs, rest)) : rest.last = c.last := by
  fun_induction typeLetters separated c generalizing inputs outputs with
  | case1 => cases h
  | case2 c t after hn ht =>
    cases h
    exact last_nextWord hn
  | case3 => cases h
  | case4 => cases h
  | case5 separated c t after hn ht ht' hs ih => exact (ih h).trans (last_nextWord hn)
  | case6 separated c t after hn ht ht' ih =>
    cases hr : after.typeLetters separated with
    | error e => simp [hr, Except.map] at h
    | ok read =>
      rw [hr] at h
      cases separated <;> cases h <;> exact (ih hr).trans (last_nextWord hn)

theorem last_nextPhrase {sees : Token → Bool} {p : Phrase}
    (h : c.nextPhrase sees = .ok (some (p, rest))) : rest.last = c.last := by
  cases reads_of_nextPhrase h with
  | definition hn hcolon hname hbody =>
    exact (last_bodyTokens (congrArg Prod.snd hbody)).trans ((last_next hname).trans (last_next hn))
  | unended hn hcolon hname hbody => exact (last_next hname).trans (last_next hn)
  | declaration hn hcolon hexternal hname hbracket htext hletters =>
    exact (last_typeLetters hletters).trans <| (last_nextWord hbracket).trans <|
      (last_nextWord hname).trans (last_next hn)
  | see hn hcolon hexternal hsees hname => exact (last_next hname).trans (last_next hn)
  | token hn => exact last_next hn

/-! ### Gaps between tokens -/

theorem consumed_rawWord (h : c.rawWord = some (t, after)) : after.consumed = c.consumed := by
  obtain ⟨-, -, rfl⟩ := rawWord_eq_some.mp h
  rfl

theorem consumed_pastWord? {close : String} (h : c.pastWord? close = some after) :
    after.consumed = c.consumed := by
  fun_induction pastWord? close c with
  | case1 => cases h
  | case2 c t b hr ht =>
    cases h
    exact consumed_rawWord hr
  | case3 c t b hr ht ih => exact (ih h).trans (consumed_rawWord hr)

theorem consumed_afterComment? {word : String} (h : afterComment? word c = some after) :
    after.consumed = c.consumed := by
  have hpast : ∀ close, (c.skipPast close).consumed = c.consumed := by
    intro close
    unfold skipPast
    cases hp : c.pastWord? close with
    | none => rfl
    | some behind => exact consumed_pastWord? hp
  unfold afterComment? at h
  split_ifs at h
  · cases h
    rfl
  · cases h
    exact hpast _
  · cases h
    exact hpast _

end StackEffect.Cursor
