import Mathlib.Data.List.TakeWhile
import StackEffect.Proofs.Cursor.Last
import StackEffect.Proofs.Cursor.Later

/-!
Texts that go on. A text is continued on a line of its own (`followedBy`). What can be read of it without
the continuation is read with it just the same (`nextPhrase_followedBy`), and where nothing is left to
read the continuation is read from its start (`next_followedBy_of_end`), but for a comment that has not
been closed (`endsInComment`).
-/
namespace StackEffect.Cursor
variable {c after rest : Cursor} {t : Token} (more : List Char)

/-- The same text, continued on a line of its own. -/
def followedBy (c : Cursor) : Cursor := { c with rest := c.rest ++ '\n' :: more }

def nextLine (c : Cursor) : Cursor := { c with rest := more, place := c.last.after '\n' }

def leavesOpen (word : String) (c : Cursor) : Bool :=
  word = "(" && (c.pastWord? ")").isNone || word = "(*" && (c.pastWord? "*)").isNone

theorem dropWhile_append_of_ne_nil {p : Char → Bool} {cs : List Char} (h : cs.dropWhile p ≠ [])
    (ds : List Char) : (cs ++ ds).dropWhile p = cs.dropWhile p ++ ds := by
  rw [List.dropWhile_append, if_neg (by simpa using h)]

theorem takeWhile_append_of_ne_nil {p : Char → Bool} {cs : List Char} (h : cs.dropWhile p ≠ [])
    (ds : List Char) : (cs ++ ds).takeWhile p = cs.takeWhile p := by
  rw [List.takeWhile_append, if_neg fun hl => h ?_]
  exact List.dropWhile_eq_nil_iff.mpr (List.takeWhile_eq_self_iff.mp
    ((List.takeWhile_prefix p).eq_of_length hl))

theorem takeWhile_isInk_append (cs : List Char) :
    (cs ++ '\n' :: more).takeWhile isInk = cs.takeWhile isInk := by
  have hstop : isInk '\n' = false := by decide
  rw [List.takeWhile_append]
  split_ifs with hl
  · rw [List.takeWhile_cons, hstop, (List.takeWhile_prefix isInk).eq_of_length hl]
    simp
  · rfl

theorem dropWhile_isInk_append (cs : List Char) :
    (cs ++ '\n' :: more).dropWhile isInk = cs.dropWhile isInk ++ '\n' :: more := by
  have hstop : isInk '\n' = false := by decide
  rw [List.dropWhile_append]
  split_ifs with hl
  · rw [List.dropWhile_cons, hstop, List.isEmpty_iff.mp hl]
    simp
  · rfl

/-- What stops within a text stops there as well if the text goes on. -/
theorem skipWhile_followedBy {p : Char → Bool} (h : (c.skipWhile p).rest ≠ []) :
    (c.followedBy more).skipWhile p = (c.skipWhile p).followedBy more := by
  have hrest : c.rest.dropWhile p ≠ [] := h
  simp only [skipWhile, followedBy, advance, takeWhile_append_of_ne_nil hrest,
    dropWhile_append_of_ne_nil hrest]

theorem skipInk_followedBy (c : Cursor) :
    (c.followedBy more).skipWhile isInk = (c.skipWhile isInk).followedBy more := by
  simp only [skipWhile, followedBy, advance, takeWhile_isInk_append, dropWhile_isInk_append]

theorem rawWord_followedBy (h : c.rawWord = some (t, after)) :
    (c.followedBy more).rawWord = some (t, after.followedBy more) := by
  obtain ⟨hne, rfl, rfl⟩ := rawWord_eq_some.mp h
  refine rawWord_eq_some.mpr ?_
  rw [skipWhile_followedBy more hne, skipInk_followedBy]
  exact ⟨by simp [followedBy], by simp only [followedBy, takeWhile_isInk_append], rfl⟩

theorem nextWord_followedBy (h : c.nextWord = some (t, after)) :
    (c.followedBy more).nextWord = some (t, after.followedBy more) := by
  obtain ⟨⟨t', a⟩, hr, h⟩ := Option.map_eq_some_iff.mp h
  cases h
  rw [nextWord, rawWord_followedBy more hr]
  rfl

theorem pastWord?_followedBy {close : String} (h : c.pastWord? close = some after) :
    (c.followedBy more).pastWord? close = some (after.followedBy more) := by
  fun_induction pastWord? close c with
  | case1 => cases h
  | case2 c t b hr ht =>
    cases h
    rw [pastWord?_eq, rawWord_followedBy more hr]
    exact if_pos ht
  | case3 c t b hr ht ih =>
    rw [pastWord?_eq, rawWord_followedBy more hr]
    exact (if_neg ht).trans (ih h)

theorem skipLine_followedBy (c : Cursor) :
    (c.followedBy more).skipLine = c.skipLine.followedBy more ∨
      c.skipLine.rest = [] ∧ (c.followedBy more).skipLine = c.nextLine more := by
  by_cases hline : c.rest.dropWhile (· ≠ '\n') = []
  · have hall := List.dropWhile_eq_nil_iff.mp hline
    have htake : (c.rest ++ '\n' :: more).takeWhile (· ≠ '\n') = c.rest := by
      rw [List.takeWhile_append_of_pos hall]
      simp
    have hdrop : (c.rest ++ '\n' :: more).dropWhile (· ≠ '\n') = '\n' :: more := by
      rw [List.dropWhile_append_of_pos hall]
      simp
    refine .inr ⟨?_, ?_⟩
    · simp only [skipLine, skipOne, skipWhile, advance, hline]
      rfl
    · simp only [skipLine, skipOne, skipWhile, advance, followedBy, htake, hdrop]
      rfl
  · have hone : ((c.skipWhile (· ≠ '\n')).followedBy more).skipOne =
        (c.skipWhile (· ≠ '\n')).skipOne.followedBy more := by
      have hne : (c.skipWhile (· ≠ '\n')).rest ≠ [] := hline
      generalize c.skipWhile (· ≠ '\n') = d at hne
      obtain ⟨rest, place, consumed⟩ := d
      cases rest with
      | nil => exact absurd rfl hne
      | cons x rest => rfl
    refine .inl ?_
    rw [skipLine, skipWhile_followedBy more hline, hone, skipLine]

theorem skipPast_followedBy (close : String) (c : Cursor) :
    (c.followedBy more).skipPast close = (c.skipPast close).followedBy more ∨
      (c.skipPast close).rest = [] ∧ (c.pastWord? close).isNone = true := by
  unfold skipPast
  cases hp : c.pastWord? close with
  | none => exact .inr ⟨rfl, rfl⟩
  | some behind =>
    rw [pastWord?_followedBy more hp]
    exact .inl rfl

/-- A comment ends within the text, or with its last line, or it is not closed. -/
theorem afterComment?_followedBy {word : String} (h : afterComment? word c = some after) :
    afterComment? word (c.followedBy more) = some (after.followedBy more) ∨
      after.rest = [] ∧ (leavesOpen word c = true ∨
        afterComment? word (c.followedBy more) = some (c.nextLine more)) := by
  unfold afterComment? at h ⊢
  split_ifs at h ⊢ with hline hround hstar
  · cases h
    rcases skipLine_followedBy more c with hskip | ⟨hnil, hskip⟩
    · exact .inl (congrArg some hskip)
    · exact .inr ⟨hnil, .inr (congrArg some hskip)⟩
  · cases h
    rcases skipPast_followedBy more ")" c with hskip | ⟨hnil, hnone⟩
    · exact .inl (congrArg some hskip)
    · exact .inr ⟨hnil, .inl (by simp [leavesOpen, hround, hnone])⟩
  · cases h
    rcases skipPast_followedBy more "*)" c with hskip | ⟨hnil, hnone⟩
    · exact .inl (congrArg some hskip)
    · exact .inr ⟨hnil, .inl (by simp [leavesOpen, hstar, hnone])⟩

theorem afterComment?_eq_none {word : String} (h : afterComment? word c = none) (c' : Cursor) :
    afterComment? word c' = none := by
  unfold afterComment? at h ⊢
  split_ifs at h ⊢
  rfl

theorem stringBody_append {cs : List Char} (h : cs ≠ []) (ds : List Char) :
    stringBody (cs ++ ds) = stringBody cs ++ ds := by
  cases cs with
  | nil => exact absurd rfl h
  | cons c cs =>
    simp only [List.cons_append, stringBody]
    split_ifs <;> rfl

theorem readString_followedBy (h : c.readString = .ok (t, after)) :
    (c.followedBy more).readString = .ok (t, after.followedBy more) := by
  obtain ⟨quote, behind, hd, rfl, rfl⟩ := readString_eq_ok h
  have hne : (stringBody (c.rest.drop 1)).dropWhile (· ≠ '"') ≠ [] :=
    hd ▸ List.cons_ne_nil quote behind
  have hbody : c.rest.drop 1 ≠ [] := by
    intro hnil
    rw [hnil] at hne
    exact hne rfl
  have hlength : 1 ≤ c.rest.length := by
    cases hc : c.rest with
    | nil => exact absurd (by rw [hc]; rfl) hbody
    | cons x rest => simp
  have hwhole : stringBody ((c.followedBy more).rest.drop 1) =
      stringBody (c.rest.drop 1) ++ '\n' :: more := by
    rw [← stringBody_append hbody, followedBy, List.drop_append_of_le_length hlength]
  have hseen : (c.rest ++ '\n' :: more).take
      ((c.rest ++ '\n' :: more).length - (behind ++ '\n' :: more).length) =
      c.rest.take (c.rest.length - behind.length) := by
    rw [List.length_append, List.length_append, Nat.add_sub_add_right]
    exact List.take_append_of_le_length (Nat.sub_le _ _)
  unfold readString
  dsimp only
  rw [hwhole, dropWhile_append_of_ne_nil hne, takeWhile_append_of_ne_nil hne, hd]
  simp only [List.cons_append, followedBy, hseen]
  rfl

theorem head?_followedBy (h : c.rest ≠ []) : (c.followedBy more).rest.head? = c.rest.head? := by
  simp only [followedBy]
  cases hc : c.rest with
  | nil => exact absurd hc h
  | cons x rest => rfl

theorem rest_ne_nil_of_rawWord (h : c.rawWord = some (t, after)) : c.rest ≠ [] := by
  intro hnil
  simp [rawWord, skipWhile, advance, hnil] at h

theorem next_followedBy_eq (hq : (c.skipWhile isBlank).rest.head? ≠ some '"')
    (hr : (c.skipWhile isBlank).rawWord = some (t, after)) : (c.followedBy more).next =
      match afterComment? t.text (after.followedBy more) with
      | some behind => behind.next
      | none => .ok (some (t, after.count.followedBy more)) := by
  have hne := rest_ne_nil_of_rawWord hr
  rw [next_eq, skipWhile_followedBy more hne, head?_followedBy more hne, if_neg hq,
    rawWord_followedBy more hr]
  rfl

theorem next_followedBy (h : c.next = .ok (some (t, after))) :
    (c.followedBy more).next = .ok (some (t, after.followedBy more)) := by
  fun_induction next c with
  | case1 c start hq =>
    have hne : start.rest ≠ [] := by
      intro hnil
      rw [hnil] at hq
      cases hq
    cases hr : start.readString with
    | error e => simp [hr, Except.map] at h
    | ok read =>
      rw [hr] at h
      cases h
      rw [next_eq, skipWhile_followedBy more hne, head?_followedBy more hne, if_pos hq,
        readString_followedBy more hr]
      rfl
  | case2 => cases h
  | case3 c start hq t' a hr behind hc ih =>
    rw [next_followedBy_eq more hq hr]
    rcases afterComment?_followedBy more hc with hcomment | ⟨hnil, -⟩
    · simp only [hcomment]
      exact ih h
    · cases (next_of_nil hnil).symm.trans h
  | case4 c start hq t' a hr hc =>
    cases h
    rw [next_followedBy_eq more hq hr, afterComment?_eq_none hc]

theorem bodyTokens_followedBy {name : String} {body : List Token}
    (h : c.bodyTokens name = (body, .ok rest)) :
    (c.followedBy more).bodyTokens name = (body, .ok (rest.followedBy more)) := by
  fun_induction bodyTokens name c generalizing body with
  | case1 => cases h
  | case2 => cases h
  | case3 c t after hn ht =>
    cases h
    rw [bodyTokens_eq, next_followedBy more hn]
    exact if_pos ht
  | case4 => cases h
  | case5 c t after hn ht ht' body' r hb ih =>
    cases h
    rw [bodyTokens_eq, next_followedBy more hn]
    refine (if_neg ht).trans ((if_neg ht').trans ?_)
    rw [ih hb]

theorem typeLetters_followedBy {separated : Bool} {inputs outputs : List String}
    (h : c.typeLetters separated = .ok (inputs, outputs, rest)) :
    (c.followedBy more).typeLetters separated = .ok (inputs, outputs, rest.followedBy more) := by
  fun_induction typeLetters separated c generalizing inputs outputs with
  | case1 => cases h
  | case2 c t after hn ht =>
    cases h
    rw [typeLetters_eq, nextWord_followedBy more hn]
    exact if_pos ht
  | case3 => cases h
  | case4 => cases h
  | case5 separated c t after hn ht ht' hs ih =>
    rw [typeLetters_eq, nextWord_followedBy more hn]
    simp only [ht', hs]
    exact ih h
  | case6 separated c t after hn ht ht' ih =>
    cases hr : after.typeLetters separated with
    | error e => simp [hr, Except.map] at h
    | ok read =>
      obtain ⟨i, o, r⟩ := read
      rw [hr] at h
      rw [typeLetters_eq, nextWord_followedBy more hn]
      cases separated <;> cases h <;> simp only [ht, ht', if_false, ih hr] <;> rfl

/-- A phrase that has been read to its end is read the same if the text goes on. -/
theorem nextPhrase_followedBy {sees : Token → Bool} {p : Phrase}
    (h : c.nextPhrase sees = .ok (some (p, rest))) (hp : p.fault? = none) :
    (c.followedBy more).nextPhrase sees = .ok (some (p, rest.followedBy more)) := by
  refine Reads.nextPhrase_eq ?_
  cases reads_of_nextPhrase h with
  | definition hn hcolon hname hbody =>
    exact .definition (next_followedBy more hn) hcolon (next_followedBy more hname)
      (bodyTokens_followedBy more hbody)
  | unended => cases hp
  | declaration hn hcolon hexternal hname hbracket htext hletters =>
    exact .declaration (next_followedBy more hn) hcolon hexternal (nextWord_followedBy more hname)
      (nextWord_followedBy more hbracket) htext (typeLetters_followedBy more hletters)
  | see hn hcolon hexternal hsees hname =>
    exact .see (next_followedBy more hn) hcolon hexternal hsees (next_followedBy more hname)
  | token hn hcolon hexternal hsees =>
    exact .token (next_followedBy more hn) hcolon hexternal hsees

/-! ### Comments that are not closed -/

/-- Whether the text runs out in a comment before there is another token. -/
def endsInComment (c : Cursor) : Bool :=
  let start := c.skipWhile isBlank
  if start.rest.head? = some '"' then false
  else
    match _h : start.rawWord with
    | none => false
    | some (t, after) =>
      match _h' : afterComment? t.text after with
      | none => false
      | some behind => leavesOpen t.text after || behind.endsInComment
termination_by c.rest.length
decreasing_by
  exact Nat.lt_of_le_of_lt (length_afterComment?_le ‹_›)
    (Nat.lt_of_lt_of_le (length_rawWord_lt ‹_›) (length_skipWhile_le _ c))

theorem endsInComment_of_comment {behind : Cursor}
    (hq : (c.skipWhile isBlank).rest.head? ≠ some '"')
    (hr : (c.skipWhile isBlank).rawWord = some (t, after))
    (hc : afterComment? t.text after = some behind) :
    c.endsInComment = (leavesOpen t.text after || behind.endsInComment) := by
  rw [endsInComment]
  simp only [if_neg hq]
  split
  · simp_all
  · split <;> simp_all

theorem nextLine_eq (hl : after.last = c.last) (hn : after.consumed = c.consumed) :
    after.nextLine more = c.nextLine more := by
  simp only [nextLine, hl, hn]

theorem skipBlank_followedBy (h : (c.skipWhile isBlank).rest = []) :
    (c.followedBy more).skipWhile isBlank = (c.nextLine more).skipWhile isBlank := by
  have hall := List.dropWhile_eq_nil_iff.mp h
  have hline : isBlank '\n' = true := by decide
  have htake : (c.rest ++ '\n' :: more).takeWhile isBlank =
      c.rest ++ '\n' :: more.takeWhile isBlank := by
    rw [List.takeWhile_append_of_pos hall, List.takeWhile_cons, if_pos hline]
  have hdrop : (c.rest ++ '\n' :: more).dropWhile isBlank = more.dropWhile isBlank := by
    rw [List.dropWhile_append_of_pos hall, List.dropWhile_cons, if_pos hline]
  simp only [skipWhile, advance, followedBy, nextLine, htake, hdrop, Place.afterAll_append]
  rfl

theorem next_followedBy_of_end (h : c.next = .ok none) (hclosed : c.endsInComment = false) :
    (c.followedBy more).next = (c.nextLine more).next := by
  fun_induction next c with
  | case1 c start hq =>
    cases hr : start.readString with
    | error e => simp [hr, Except.map] at h
    | ok read => simp [hr, Except.map] at h
  | case2 c start hq hr =>
    have hnil : start.rest = [] := by
      by_contra hne
      rw [rawWord_skipBlank, rawWord] at hr
      exact absurd hr (by simp [hne, start])
    rw [next_eq, skipBlank_followedBy more hnil, ← next_eq]
  | case3 c start hq t a hr behind hc ih =>
    rw [endsInComment_of_comment hq hr hc, Bool.or_eq_false_iff] at hclosed
    have hword : a.nextLine more = c.nextLine more :=
      nextLine_eq more ((last_rawWord hr).trans (last_skipWhile _ c))
        (consumed_rawWord (c := start) hr)
    have hbehind : behind.nextLine more = c.nextLine more :=
      (nextLine_eq more (last_afterComment? hc) (consumed_afterComment? hc)).trans hword
    rw [next_followedBy_eq more hq hr]
    rcases afterComment?_followedBy more hc with hcomment | ⟨-, hopen | hcomment⟩
    · simp only [hcomment]
      rw [ih h hclosed.2, hbehind]
    · cases hopen.symm.trans hclosed.1
    · simp only [hcomment, hword]
  | case4 => cases h

theorem nextLine_ofText {text : String} (h : c.last = (ofText text).last) :
    c.nextLine more =
      ({ rest := more } : Cursor).later c.consumed (text.toList.count '\n' + 1) := by
  have hline : c.last.line = 1 + text.toList.count '\n' := by
    rw [h]
    exact Place.line_afterAll _ _
  simp only [nextLine, later, Place.later, Place.after, if_true, hline, Nat.zero_add]
  rw [Nat.add_assoc]

end StackEffect.Cursor
