import Mathlib.Data.List.TakeWhile
import StackEffect.Proofs.Cursor.Last

/-!
What stands between tokens. A gap is made of blanks and of comments that are closed (`Gap`). Reading
skips a gap whatever comes behind it (`next_of_gap`). A comment that is not closed takes up the rest
of the text (`next_of_unclosed`).
-/
namespace StackEffect

/-! ### Words -/

/-- A word in front of this text is at its end: there is no more text, or a blank comes next. -/
def AtBreak (rest : List Char) : Prop := ∀ c ∈ rest.head?, isBlank c = true

theorem AtBreak.append {cs ds : List Char} (h : AtBreak cs) (hds : cs = [] → AtBreak ds) :
    AtBreak (cs ++ ds) := by
  cases cs with
  | nil => exact hds rfl
  | cons c cs => exact h

/-- The next word of a text, with the blanks in front of it and what follows. -/
structure FirstWord (cs blanks word rest : List Char) : Prop where
  split : cs = blanks ++ (word ++ rest)
  blank : ∀ c ∈ blanks, isBlank c = true
  nonempty : word ≠ []
  ink : ∀ c ∈ word, isInk c = true
  stops : AtBreak rest

theorem AtBreak.cons {c : Char} (hc : isBlank c = true) (rest : List Char) :
    AtBreak (c :: rest) := by
  rintro _ ⟨⟩
  exact hc

theorem not_isBlank_of_isInk {c : Char} (h : isInk c = true) : isBlank c = false := by
  simpa [isInk] using h

theorem dropWhile_isInk_of_atBreak {rest : List Char} (h : AtBreak rest) :
    rest.dropWhile isInk = rest := by
  cases rest with
  | nil => rfl
  | cons c rest =>
    have hc : isInk c = false := by simp [isInk, h c rfl]
    rw [List.dropWhile_cons, hc]
    rfl

theorem takeWhile_isInk_of_atBreak {rest : List Char} (h : AtBreak rest) :
    rest.takeWhile isInk = [] := by
  have hall := List.takeWhile_append_dropWhile (p := isInk) (l := rest)
  rw [dropWhile_isInk_of_atBreak h] at hall
  exact List.self_eq_append_left.mp hall.symm

theorem blank_or_firstWord (cs : List Char) :
    (∀ c ∈ cs, isBlank c = true) ∨ ∃ blanks word rest, FirstWord cs blanks word rest := by
  have hsplit := List.takeWhile_append_dropWhile (p := isBlank) (l := cs)
  have hstop := List.head?_dropWhile_not isBlank cs
  cases hcs : cs.dropWhile isBlank with
  | nil => exact .inl (List.dropWhile_eq_nil_iff.mp hcs)
  | cons c rest =>
    rw [hcs] at hsplit hstop
    have hc : isInk c = true := by simpa [isInk] using hstop
    refine .inr ⟨cs.takeWhile isBlank, c :: rest.takeWhile isInk, rest.dropWhile isInk, ?_⟩
    constructor
    · rw [List.cons_append, List.takeWhile_append_dropWhile, hsplit]
    · exact fun c hc => List.mem_takeWhile_imp hc
    · exact List.cons_ne_nil _ _
    · intro x hx
      rcases List.mem_cons.mp hx with rfl | hx
      · exact hc
      · exact List.mem_takeWhile_imp hx
    · intro x hx
      have hstop := List.head?_dropWhile_not isInk rest
      rw [Option.mem_def.mp hx] at hstop
      simpa [isInk] using hstop

namespace FirstWord
variable {cs blanks word rest : List Char} (h : FirstWord cs blanks word rest)
include h

theorem dropBlanks : cs.dropWhile isBlank = word ++ rest := by
  obtain ⟨rfl, hblank, hne, hink, -⟩ := h
  rw [List.dropWhile_append_of_pos hblank]
  cases word with
  | nil => exact absurd rfl hne
  | cons c word =>
    rw [List.cons_append, List.dropWhile_cons, not_isBlank_of_isInk (hink c List.mem_cons_self)]
    rfl

theorem takeBlanks : cs.takeWhile isBlank = blanks := by
  have hsplit := List.takeWhile_append_dropWhile (p := isBlank) (l := cs)
  rw [h.dropBlanks] at hsplit
  exact List.append_cancel_right (hsplit.trans h.split)

theorem takeWord : (word ++ rest).takeWhile isInk = word := by
  rw [List.takeWhile_append_of_pos h.ink, takeWhile_isInk_of_atBreak h.stops, List.append_nil]

theorem dropWord : (word ++ rest).dropWhile isInk = rest := by
  rw [List.dropWhile_append_of_pos h.ink, dropWhile_isInk_of_atBreak h.stops]

/-- A text that goes on where it has a blank has the same first word. -/
theorem append (more : List Char) (hrest : rest ≠ []) :
    FirstWord (cs ++ more) blanks word (rest ++ more) where
  split := by rw [h.split, List.append_assoc, List.append_assoc]
  blank := h.blank
  nonempty := h.nonempty
  ink := h.ink
  stops := h.stops.append fun hnil => absurd hnil hrest

theorem blankSeparated_eq : blankSeparated cs = word :: blankSeparated rest := by
  have hdrop := h.dropBlanks
  obtain ⟨c, tail, hword⟩ := List.exists_cons_of_ne_nil h.nonempty
  rw [blankSeparated]
  split
  · rename_i hnil
    rw [hdrop, hword] at hnil
    cases hnil
  · rename_i c' tail' hcons
    have hc : isInk c = true := h.ink c (hword ▸ List.mem_cons_self)
    have htake := h.takeWord
    have hrest := h.dropWord
    rw [hdrop, hword, List.cons_append] at hcons
    cases hcons
    rw [hword, List.cons_append, List.takeWhile_cons_of_pos hc] at htake
    rw [hword, List.cons_append, List.dropWhile_cons_of_pos hc] at hrest
    rw [htake, hrest, hword]

theorem length_lt : rest.length < cs.length := by
  have hword := List.length_pos_iff.mpr h.nonempty
  have hlength := congrArg List.length h.split
  rw [List.length_append, List.length_append] at hlength
  omega

theorem getLast?_eq (hrest : rest ≠ []) : rest.getLast? = cs.getLast? := by
  rw [h.split, ← List.append_assoc, List.getLast?_append_of_ne_nil _ hrest]

theorem rest_ne_nil (hlast : ∀ c ∈ cs.getLast?, isBlank c = true) : rest ≠ [] := by
  rintro rfl
  have hsplit : cs = blanks ++ word := by rw [h.split, List.append_nil]
  rw [hsplit, List.getLast?_append_of_ne_nil _ h.nonempty] at hlast
  have hblank := hlast _ (List.getLast?_eq_some_getLast h.nonempty)
  rw [not_isBlank_of_isInk (h.ink _ (List.getLast_mem h.nonempty))] at hblank
  cases hblank

end FirstWord

theorem blankSeparated_of_blank {cs : List Char} (h : ∀ c ∈ cs, isBlank c = true) :
    blankSeparated cs = [] := by
  have hdrop := List.dropWhile_eq_nil_iff.mpr h
  rw [blankSeparated]
  split
  · rfl
  · rename_i hcons
    cases hdrop.symm.trans hcons

theorem mem_of_mem_blankSeparated {cs word : List Char} (h : word ∈ blankSeparated cs) {c : Char}
    (hc : c ∈ word) : c ∈ cs := by
  induction hn : cs.length using Nat.strong_induction_on generalizing cs with
  | _ n ih =>
    subst hn
    rcases blank_or_firstWord cs with hblank | ⟨blanks, first, rest, hfirst⟩
    · rw [blankSeparated_of_blank hblank] at h
      cases h
    · rw [hfirst.blankSeparated_eq] at h
      rw [hfirst.split, List.mem_append, List.mem_append]
      rcases List.mem_cons.mp h with rfl | hmem
      · exact .inr (.inl hc)
      · exact .inr (.inr (ih _ hfirst.length_lt hmem rfl))

namespace Cursor
variable {c after behind : Cursor} {t : Token} {blanks word rest : List Char}

theorem skipBlank_of_firstWord (h : FirstWord c.rest blanks word rest) :
    c.skipWhile isBlank = c.advance blanks (word ++ rest) := by
  rw [skipWhile, h.takeBlanks, h.dropBlanks]

theorem rawWord_of_firstWord (h : FirstWord c.rest blanks word rest) : c.rawWord =
    some (⟨String.ofList word, number? word, c.place.afterAll blanks⟩,
      c.advance (blanks ++ word) rest) := by
  have hskip : (c.skipWhile isBlank).skipWhile isInk = c.advance (blanks ++ word) rest := by
    rw [skipBlank_of_firstWord h, skipWhile]
    simp only [advance, h.takeWord, h.dropWord, Place.afterAll_append]
  have hrest : (c.skipWhile isBlank).rest = word ++ rest := by
    rw [skipBlank_of_firstWord h]
    rfl
  refine rawWord_eq_some.mpr ⟨?_, ?_, hskip.symm⟩
  · rw [hrest]
    simp [h.nonempty]
  · rw [hrest, h.takeWord, skipBlank_of_firstWord h]
    rfl

theorem rawWord_of_blank (h : ∀ x ∈ c.rest, isBlank x = true) : c.rawWord = none := by
  unfold rawWord
  exact if_pos (List.dropWhile_eq_nil_iff.mpr h)

theorem exists_firstWord (h : c.rawWord = some (t, after)) : ∃ blanks word,
    FirstWord c.rest blanks word after.rest ∧
      t = ⟨String.ofList word, number? word, c.place.afterAll blanks⟩ ∧
      after = c.advance (blanks ++ word) after.rest := by
  rcases blank_or_firstWord c.rest with hblank | ⟨blanks, word, rest, hfirst⟩
  · rw [rawWord_of_blank hblank] at h
    cases h
  · rw [rawWord_of_firstWord hfirst] at h
    cases h
    exact ⟨blanks, word, hfirst, rfl, rfl⟩

end Cursor

/-! ### Comments -/

/-- What is between the brackets of a comment: blanks set it off, and none of its words is the one
that closes the comment. -/
structure Enclosed (closing inside : List Char) : Prop where
  nonempty : inside ≠ []
  opens : AtBreak inside
  closes : ∀ c ∈ inside.getLast?, isBlank c = true
  free : closing ∉ blankSeparated inside

def brackets : List (List Char × List Char) := [(['('], [')']), (['(', '*'], ['*', ')'])]

def opensComment (word : List Char) : Bool := word = ['\\'] || brackets.any (·.1 = word)

/-- Blanks and comments in front of a text. -/
inductive Gap : List Char → List Char → Prop
  | nil (rest : List Char) : Gap [] rest
  | blank {c : Char} {gap rest : List Char} : isBlank c = true → Gap gap rest → Gap (c :: gap) rest
  | line {line gap rest : List Char} : AtBreak line → '\n' ∉ line → Gap gap rest →
      Gap ('\\' :: (line ++ '\n' :: gap)) rest
  | enclosed {opening closing inside gap rest : List Char} : (opening, closing) ∈ brackets →
      Enclosed closing inside → AtBreak (gap ++ rest) → Gap gap rest →
      Gap (opening ++ (inside ++ (closing ++ gap))) rest

/-- A comment up to the end of the text. -/
inductive Unclosed : List Char → Prop
  | line {line : List Char} : AtBreak line → '\n' ∉ line → Unclosed ('\\' :: line)
  | bracket {opening closing inside : List Char} : (opening, closing) ∈ brackets →
      AtBreak inside → closing ∉ blankSeparated inside → Unclosed (opening ++ inside)

theorem Gap.blanks {blanks gap rest : List Char} (hb : ∀ c ∈ blanks, isBlank c = true)
    (h : Gap gap rest) : Gap (blanks ++ gap) rest := by
  induction blanks with
  | nil => exact h
  | cons c blanks ih =>
    exact .blank (hb c List.mem_cons_self) (ih fun x hx => hb x (List.mem_cons_of_mem c hx))

theorem brackets_words {opening closing : List Char} (h : (opening, closing) ∈ brackets) :
    (opening ≠ [] ∧ ∀ c ∈ opening, isInk c = true) ∧
      closing ≠ [] ∧ ∀ c ∈ closing, isInk c = true := by
  simp only [brackets, List.mem_cons, Prod.mk.injEq, List.not_mem_nil, or_false] at h
  rcases h with ⟨rfl, rfl⟩ | ⟨rfl, rfl⟩
  · exact ⟨⟨by simp, List.all_eq_true.mp rfl⟩, by simp, List.all_eq_true.mp rfl⟩
  · exact ⟨⟨by simp, List.all_eq_true.mp rfl⟩, by simp, List.all_eq_true.mp rfl⟩

theorem head?_ne_quote_of_brackets {opening closing : List Char}
    (h : (opening, closing) ∈ brackets) : opening.head? ≠ some '"' := by
  have hall : ∀ b ∈ brackets, b.1.head? ≠ some '"' := by decide
  exact hall _ h

theorem AtBreak.of_append {cs ds : List Char} (h : AtBreak (cs ++ ds)) : AtBreak cs := by
  cases cs with
  | nil => exact fun _ hnil => by cases hnil
  | cons c cs => exact h

theorem not_atBreak_of_ink {word rest : List Char} (hne : word ≠ [])
    (hink : ∀ c ∈ word, isInk c = true) : ¬ AtBreak (word ++ rest) := by
  intro hbreak
  obtain ⟨c, tail, rfl⟩ := List.exists_cons_of_ne_nil hne
  have hblank := hbreak c rfl
  rw [not_isBlank_of_isInk (hink c List.mem_cons_self)] at hblank
  cases hblank

theorem exists_inside {closing cs : List Char} (hnonempty : closing ≠ [])
    (hink : ∀ x ∈ closing, isInk x = true) (h : closing ∈ blankSeparated cs) : ∃ inside rest,
      cs = inside ++ (closing ++ rest) ∧ (∀ x ∈ inside.getLast?, isBlank x = true) ∧
        closing ∉ blankSeparated inside ∧ AtBreak rest := by
  induction hn : cs.length using Nat.strong_induction_on generalizing cs with
  | _ n ih =>
    subst hn
    rcases blank_or_firstWord cs with hblank | ⟨blanks, word, tail, hfirst⟩
    · rw [blankSeparated_of_blank hblank] at h
      cases h
    by_cases hword : closing = word
    · subst hword
      refine ⟨blanks, tail, hfirst.split, fun x hx => hfirst.blank x (List.mem_of_getLast? hx), ?_,
        hfirst.stops⟩
      rw [blankSeparated_of_blank hfirst.blank]
      exact List.not_mem_nil
    · rw [hfirst.blankSeparated_eq] at h
      obtain ⟨inside, rest, rfl, hlast, hfree, hstop⟩ :=
        ih _ hfirst.length_lt (List.mem_of_ne_of_mem hword h) rfl
      have hinside : inside ≠ [] := by
        rintro rfl
        exact not_atBreak_of_ink hnonempty hink hfirst.stops
      have hfront : FirstWord (blanks ++ (word ++ inside)) blanks word inside :=
        ⟨rfl, hfirst.blank, hfirst.nonempty, hfirst.ink, hfirst.stops.of_append⟩
      refine ⟨blanks ++ (word ++ inside), rest, ?_, ?_, ?_, hstop⟩
      · rw [hfirst.split, List.append_assoc, List.append_assoc]
      · rwa [← hfront.getLast?_eq hinside]
      · rw [hfront.blankSeparated_eq]
        exact List.not_mem_cons_of_ne_of_not_mem hword hfree

theorem unclosed_or_closed {word rest : List Char} (hopens : opensComment word = true)
    (hstop : AtBreak rest) : Unclosed (word ++ rest) ∨ ∃ comment tail, comment ≠ [] ∧
      word ++ rest = comment ++ tail ∧
      ∀ gap behind, tail = gap ++ behind → Gap gap behind → Gap (comment ++ gap) behind := by
  simp only [opensComment, Bool.or_eq_true, decide_eq_true_eq, List.any_eq_true, Prod.exists]
    at hopens
  rcases hopens with rfl | ⟨opening, closing, hmem, rfl⟩
  · by_cases hline : '\n' ∈ rest
    · obtain ⟨line, tail, rfl, hfree⟩ := List.eq_append_cons_of_mem hline
      refine .inr ⟨'\\' :: (line ++ ['\n']), tail, List.cons_ne_nil _ _, by simp, ?_⟩
      rintro gap behind rfl hgap
      simpa using Gap.line hstop.of_append hfree hgap
    · exact .inl (.line hstop hline)
  · obtain ⟨⟨hopening, -⟩, hclosing, hclosingInk⟩ := brackets_words hmem
    by_cases hfound : closing ∈ blankSeparated rest
    · obtain ⟨inside, tail, rfl, hlast, hfree, htail⟩ := exists_inside hclosing hclosingInk hfound
      have hinside : inside ≠ [] := by
        rintro rfl
        exact not_atBreak_of_ink hclosing hclosingInk hstop
      refine .inr ⟨opening ++ (inside ++ closing), tail, by simp [hopening], by simp, ?_⟩
      rintro gap behind rfl hgap
      have henclosed := Gap.enclosed hmem ⟨hinside, hstop.of_append, hlast, hfree⟩ htail hgap
      simpa using henclosed
    · exact .inl (.bracket hmem hstop hfound)

namespace Cursor
variable {c after behind : Cursor} {t : Token} {closing gap inside rest : List Char}

theorem pastWord?_of_inside (hnonempty : closing ≠ []) (hink : ∀ x ∈ closing, isInk x = true)
    (hlast : ∀ x ∈ inside.getLast?, isBlank x = true) (hfree : closing ∉ blankSeparated inside)
    (hstop : AtBreak rest) (hrest : c.rest = inside ++ (closing ++ rest)) :
    c.pastWord? (String.ofList closing) = some (c.advance (inside ++ closing) rest) := by
  induction hn : inside.length using Nat.strong_induction_on generalizing inside c with
  | _ n ih =>
    subst hn
    rw [pastWord?_eq]
    rcases blank_or_firstWord inside with hblank | ⟨blanks, word, tail, hfirst⟩
    · have hword : FirstWord c.rest inside closing rest :=
        ⟨hrest, hblank, hnonempty, hink, hstop⟩
      rw [rawWord_of_firstWord hword]
      exact if_pos rfl
    · have htail : tail ≠ [] := hfirst.rest_ne_nil hlast
      have hword : FirstWord c.rest blanks word (tail ++ (closing ++ rest)) :=
        hrest ▸ hfirst.append _ htail
      rw [hfirst.blankSeparated_eq, List.mem_cons, not_or] at hfree
      rw [rawWord_of_firstWord hword]
      dsimp only
      rw [if_neg fun heq => hfree.1 (String.ofList_injective heq).symm,
        ih _ hfirst.length_lt (hfirst.getLast?_eq htail ▸ hlast) hfree.2 rfl rfl]
      simp only [advance, hfirst.split, List.append_assoc, Place.afterAll_append]

theorem pastWord?_of_free (h : closing ∉ blankSeparated c.rest) :
    c.pastWord? (String.ofList closing) = none := by
  fun_induction pastWord? (String.ofList closing) c with
  | case1 => rfl
  | case2 c t a hr ht =>
    obtain ⟨blanks, word, hfirst, rfl, -⟩ := exists_firstWord hr
    rw [hfirst.blankSeparated_eq, String.ofList_injective ht] at h
    exact absurd List.mem_cons_self h
  | case3 c t a hr ht ih =>
    obtain ⟨blanks, word, hfirst, rfl, -⟩ := exists_firstWord hr
    rw [hfirst.blankSeparated_eq] at h
    exact ih fun hmem => h (List.mem_cons_of_mem _ hmem)

theorem skipPast_of_free (h : closing ∉ blankSeparated c.rest) :
    c.skipPast (String.ofList closing) = c.exhausted := by
  rw [skipPast, pastWord?_of_free h]
  rfl

theorem skipWhile_of_append {p : Char → Bool} {seen : List Char} (h : c.rest = seen ++ rest)
    (hseen : ∀ x ∈ seen, p x = true) (hrest : ∀ x ∈ rest.head?, p x = false) :
    c.skipWhile p = c.advance seen rest := by
  have hdrop : rest.dropWhile p = rest := by
    cases rest with
    | nil => rfl
    | cons x rest => exact List.dropWhile_cons_of_neg (by simp [hrest x rfl])
  have htake : rest.takeWhile p = [] := by
    cases rest with
    | nil => rfl
    | cons x rest => exact List.takeWhile_cons_of_neg (by simp [hrest x rfl])
  rw [skipWhile, h, List.takeWhile_append_of_pos hseen, List.dropWhile_append_of_pos hseen, hdrop,
    htake, List.append_nil]

theorem skipLine_of_line {line : List Char} (hline : '\n' ∉ line)
    (h : c.rest = line ++ '\n' :: rest) : c.skipLine = c.advance (line ++ ['\n']) rest := by
  rw [skipLine, skipWhile_of_append h (forall_ne_of_not_mem hline) (by simp)]
  simp only [skipOne, advance, List.take_succ_cons, List.take_zero, List.drop_succ_cons,
    List.drop_zero, Place.afterAll_append]

theorem skipLine_of_free (h : '\n' ∉ c.rest) : c.skipLine = c.exhausted := by
  have hall := forall_ne_of_not_mem h
  rw [skipLine, skipWhile_of_append (List.append_nil c.rest).symm hall (by simp)]
  rfl

theorem afterComment?_line (c : Cursor) :
    afterComment? (String.ofList ['\\']) c = some c.skipLine := rfl

theorem afterComment?_of_bracket {opening : List Char} (h : (opening, closing) ∈ brackets)
    (c : Cursor) : afterComment? (String.ofList opening) c =
      some (c.skipPast (String.ofList closing)) := by
  simp only [brackets, List.mem_cons, Prod.mk.injEq, List.not_mem_nil, or_false] at h
  rcases h with ⟨rfl, rfl⟩ | ⟨rfl, rfl⟩
  · rfl
  · rfl

theorem afterComment?_of_not_opensComment {word : List Char} (h : opensComment word = false)
    (c : Cursor) : afterComment? (String.ofList word) c = none := by
  unfold afterComment?
  split_ifs with hline hround hstar
  · obtain rfl : word = ['\\'] := String.ofList_injective hline
    cases h
  · obtain rfl : word = ['('] := String.ofList_injective hround
    cases h
  · obtain rfl : word = ['(', '*'] := String.ofList_injective hstar
    cases h
  · rfl

/-! ### Reading behind a gap -/

theorem next_skipBlank (c : Cursor) : (c.skipWhile isBlank).next = c.next := by
  rw [next_eq, next_eq c, skipWhile_skipWhile]

theorem next_of_firstWord {blanks word : List Char} (h : FirstWord c.rest blanks word rest)
    (hquote : word.head? ≠ some '"') : c.next =
      match afterComment? (String.ofList word) (c.advance (blanks ++ word) rest) with
      | some behind => behind.next
      | none => .ok (some (⟨String.ofList word, number? word, c.place.afterAll blanks⟩,
          (c.advance (blanks ++ word) rest).count)) := by
  have hhead : (c.skipWhile isBlank).rest.head? ≠ some '"' := by
    rw [skipBlank_of_firstWord h]
    obtain ⟨x, tail, hword⟩ := List.exists_cons_of_ne_nil h.nonempty
    simpa [advance, hword] using hquote
  have hnext := next_eq c
  rw [if_neg hhead, rawWord_skipBlank, rawWord_of_firstWord h] at hnext
  exact hnext

theorem next_of_blank {x : Char} (hx : isBlank x = true) (h : c.rest = x :: rest) :
    c.next = (c.advance [x] rest).next := by
  have hskip : c.skipWhile isBlank = (c.advance [x] rest).skipWhile isBlank := by
    simp [skipWhile, advance, h, hx, ← Place.afterAll_append]
  rw [← next_skipBlank, hskip, next_skipBlank]

/-- Reading skips what stands between tokens. -/
theorem next_of_gap (hgap : Gap gap rest) (h : c.rest = gap ++ rest) :
    c.next = (c.advance gap rest).next := by
  induction hgap generalizing c with
  | nil rest =>
    obtain rfl : c.rest = rest := h
    rfl
  | @blank x gap rest hx _ ih => exact (next_of_blank hx h).trans (ih rfl)
  | @line line gap rest hbreak hline _ ih =>
    have hword : FirstWord c.rest [] ['\\'] (line ++ '\n' :: (gap ++ rest)) :=
      ⟨by simpa using h, by simp, by simp, List.all_eq_true.mp rfl,
        hbreak.append fun _ => .cons (by decide) _⟩
    rw [next_of_firstWord hword (by decide), afterComment?_line]
    dsimp only
    rw [skipLine_of_line hline rfl, ih rfl]
    simp [advance, Place.afterAll]
  | @enclosed opening closing inside gap rest hmem hinside hbreak _ ih =>
    obtain ⟨⟨hopening, hopeningInk⟩, hclosing, hclosingInk⟩ := brackets_words hmem
    have hword : FirstWord c.rest [] opening (inside ++ (closing ++ (gap ++ rest))) :=
      ⟨by simpa using h, by simp, hopening, hopeningInk,
        hinside.opens.append fun hnil => absurd hnil hinside.nonempty⟩
    rw [next_of_firstWord hword (head?_ne_quote_of_brackets hmem), afterComment?_of_bracket hmem]
    dsimp only
    rw [skipPast, pastWord?_of_inside hclosing hclosingInk hinside.closes hinside.free hbreak rfl,
      Option.getD_some, ih rfl]
    simp [advance, Place.afterAll_append]

theorem next_exhausted (c : Cursor) : c.exhausted.next = .ok none := next_of_nil rfl

/-- A comment that is not closed is the last thing that is read. -/
theorem next_of_unclosed (h : Unclosed c.rest) : c.next = .ok none := by
  generalize hrest : c.rest = text at h
  cases h with
  | @line line hbreak hline =>
    have hword : FirstWord c.rest [] ['\\'] line :=
      ⟨hrest, by simp, by simp, List.all_eq_true.mp rfl, hbreak⟩
    rw [next_of_firstWord hword (by decide), afterComment?_line]
    dsimp only
    rw [skipLine_of_free (c := c.advance _ line) hline, next_exhausted]
  | @bracket opening closing inside hmem hbreak hfree =>
    obtain ⟨⟨hopening, hopeningInk⟩, -⟩ := brackets_words hmem
    have hword : FirstWord c.rest [] opening inside :=
      ⟨hrest, by simp, hopening, hopeningInk, hbreak⟩
    rw [next_of_firstWord hword (head?_ne_quote_of_brackets hmem), afterComment?_of_bracket hmem]
    dsimp only
    rw [skipPast_of_free (c := c.advance _ inside) hfree, next_exhausted]

end Cursor
end StackEffect
