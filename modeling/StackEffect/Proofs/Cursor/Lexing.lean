import StackEffect.Proofs.Cursor.Gap

/-!
The cut of a text into gaps and tokens. A text has one cut (`Lexes`), in which all of its characters
stand, and reading token by token finds it (`lexes_tokens`).
-/
namespace StackEffect
open Cursor

/-! ### The characters of a token -/

/-- The blank that sets a string off from its first quote, if there is one. -/
structure SetsOff (delimiter body : List Char) : Prop where
  short : delimiter.length ≤ 1
  blank : ∀ c ∈ delimiter, isBlank c = true
  maximal : delimiter = [] → ∀ c ∈ body.head?, isBlank c = false

/-- The characters of a token that is followed by a text. A word goes on up to the next blank; a
string stands between quotes. -/
inductive Spells : List Char → Token → List Char → Prop
  | word {word rest : List Char} {place : Place} : word ≠ [] → (∀ c ∈ word, isInk c = true) →
      AtBreak rest → word.head? ≠ some '"' → opensComment word = false →
      Spells word ⟨String.ofList word, number? word, place⟩ rest
  | string {delimiter value rest : List Char} {place : Place} : SetsOff delimiter value →
      '"' ∉ value → Spells ('"' :: (delimiter ++ (value ++ ['"'])))
        ⟨"\"" ++ String.ofList value ++ "\"", some (.str (String.ofList value)), place⟩ rest

theorem Spells.ne_nil {chars rest : List Char} {t : Token} (h : Spells chars t rest) :
    chars ≠ [] := by
  cases h with
  | word hne => exact hne
  | string => exact List.cons_ne_nil _ _

theorem Spells.move {chars rest : List Char} {t : Token} (h : Spells chars t rest) (place : Place) :
    Spells chars { t with place } rest := by
  cases h with
  | word hne hink hstop hquote hopens => exact .word hne hink hstop hquote hopens
  | string hoff hfree => exact .string hoff hfree

/-- What a text starts with behind a gap. -/
inductive Front : List Char → Prop
  | nil : Front []
  | unclosed {text : List Char} : Unclosed text → Front text
  | unended {tail : List Char} : '"' ∉ tail → Front ('"' :: tail)
  | token {chars rest : List Char} {t : Token} : Spells chars t rest → Front (chars ++ rest)

theorem exists_setsOff (cs : List Char) :
    ∃ delimiter, cs = delimiter ++ stringBody cs ∧ SetsOff delimiter (stringBody cs) := by
  cases cs with
  | nil => exact ⟨[], rfl, by simp, by simp, by simp [stringBody]⟩
  | cons c cs =>
    by_cases hc : isBlank c = true
    · exact ⟨[c], by simp [stringBody, hc], by simp, by simp [hc], by simp⟩
    · exact ⟨[], by simp [stringBody, hc], by simp, by simp, by simp [stringBody, hc]⟩

theorem SetsOff.stringBody_eq {delimiter body : List Char} (h : SetsOff delimiter body) :
    stringBody (delimiter ++ body) = body := by
  obtain ⟨hshort, hblank, hmaximal⟩ := h
  match delimiter with
  | [] =>
    cases body with
    | nil => rfl
    | cons c body => simp [stringBody, hmaximal rfl c rfl]
  | [c] => simp [stringBody, hblank c List.mem_cons_self]
  | _ :: _ :: _ => simp at hshort

theorem isBlank_quote : isBlank '"' = false := by decide

theorem SetsOff.append {delimiter value : List Char} (h : SetsOff delimiter value)
    (rest : List Char) : SetsOff delimiter (value ++ '"' :: rest) := by
  refine ⟨h.short, h.blank, fun hnil => ?_⟩
  cases value with
  | nil =>
    rintro c ⟨⟩
    exact isBlank_quote
  | cons c value => exact h.maximal hnil

theorem SetsOff.of_append {delimiter value rest : List Char}
    (h : SetsOff delimiter (value ++ rest)) : SetsOff delimiter value := by
  refine ⟨h.short, h.blank, fun hnil => ?_⟩
  cases value with
  | nil => simp
  | cons c value => exact h.maximal hnil

theorem front_of_quote (tail : List Char) : Front ('"' :: tail) := by
  by_cases hquote : '"' ∈ tail
  · obtain ⟨delimiter, htail, hoff⟩ := exists_setsOff tail
    have hbody : '"' ∈ stringBody tail := by
      rw [htail, List.mem_append] at hquote
      refine hquote.resolve_left fun hmem => ?_
      exact absurd (hoff.blank _ hmem) (by rw [isBlank_quote]; exact Bool.false_ne_true)
    obtain ⟨value, rest, hvalue, hfree⟩ := List.eq_append_cons_of_mem hbody
    rw [hvalue] at htail hoff
    have hstring : Spells ('"' :: (delimiter ++ (value ++ ['"'])))
        ⟨"\"" ++ String.ofList value ++ "\"", some (.str (String.ofList value)), {}⟩ rest :=
      .string hoff.of_append hfree
    rw [htail]
    simpa using Front.token hstring
  · exact .unended hquote

/-- Behind its gap a text is at its end, in a comment without one, in a string without one, or at a
token. -/
theorem exists_front (cs : List Char) :
    ∃ gap rest, cs = gap ++ rest ∧ Gap gap rest ∧ Front rest := by
  induction hn : cs.length using Nat.strong_induction_on generalizing cs with
  | _ n ih =>
    subst hn
    rcases blank_or_firstWord cs with hblank | ⟨blanks, word, tail, hfirst⟩
    · refine ⟨cs, [], (List.append_nil cs).symm, ?_, .nil⟩
      simpa using Gap.blanks hblank (.nil [])
    have hblanks : Gap blanks (word ++ tail) := by
      simpa using Gap.blanks hfirst.blank (.nil (word ++ tail))
    by_cases hquote : word.head? = some '"'
    · obtain ⟨c, inked, rfl⟩ := List.exists_cons_of_ne_nil hfirst.nonempty
      obtain rfl : c = '"' := Option.some.inj hquote
      exact ⟨blanks, _, hfirst.split, hblanks, front_of_quote (inked ++ tail)⟩
    -- A comment that is closed leaves less text, and belongs to the gap.
    by_cases hopens : opensComment word = true
    · rcases unclosed_or_closed hopens hfirst.stops with
        hunclosed | ⟨comment, behind, hne, heq, hgap⟩
      · exact ⟨blanks, _, hfirst.split, hblanks, .unclosed hunclosed⟩
      · have hlt : behind.length < cs.length := by
          have hcomment := List.length_pos_iff.mpr hne
          rw [hfirst.split, heq]
          simp only [List.length_append]
          omega
        obtain ⟨gap, rest, rfl, hrest, hfront⟩ := ih _ hlt behind rfl
        refine ⟨blanks ++ (comment ++ gap), rest, ?_, Gap.blanks hfirst.blank (hgap _ _ rfl hrest),
          hfront⟩
        rw [hfirst.split, heq]
        simp
    · have hword : Spells word ⟨String.ofList word, number? word, {}⟩ tail :=
        .word hfirst.nonempty hfirst.ink hfirst.stops hquote (Bool.eq_false_iff.mpr hopens)
      exact ⟨blanks, _, hfirst.split, hblanks, .token hword⟩

namespace Cursor
variable {c after : Cursor} {t : Token} {chars rest tail : List Char}

theorem skipBlank_of_quote (h : c.rest = '"' :: tail) : c.skipWhile isBlank = c := by
  have hstart : ∀ x ∈ c.rest.head?, isBlank x = false := by
    rw [h]
    rintro x ⟨⟩
    exact isBlank_quote
  exact skipWhile_of_append (List.nil_append c.rest).symm (by simp) hstart

theorem next_of_quote (h : c.rest = '"' :: tail) : c.next = c.readString.map some := by
  rw [next_eq, skipBlank_of_quote h, if_pos (by rw [h]; rfl)]

theorem next_of_unended (h : c.rest = '"' :: tail) (hfree : '"' ∉ tail) :
    c.next = .error (.unterminatedString c.place.line) := by
  have hbody : (stringBody (c.rest.drop 1)).dropWhile (· ≠ '"') = [] := by
    rw [h]
    exact List.dropWhile_eq_nil_iff.mpr
      (forall_ne_of_not_mem fun hmem => hfree ((stringBody_suffix tail).mem hmem))
  rw [next_of_quote h, readString]
  dsimp only
  rw [hbody]
  rfl

theorem readString_of_string {delimiter value : List Char} (hoff : SetsOff delimiter value)
    (hfree : '"' ∉ value) (h : c.rest = '"' :: (delimiter ++ (value ++ ['"'])) ++ rest) :
    c.readString = .ok
      (⟨"\"" ++ String.ofList value ++ "\"", some (.str (String.ofList value)), c.place⟩,
        (c.advance ('"' :: (delimiter ++ (value ++ ['"']))) rest).count) := by
  have hbody : stringBody (c.rest.drop 1) = value ++ '"' :: rest := by
    rw [h]
    simpa using (hoff.append rest).stringBody_eq
  have hseen : c.rest.take (c.rest.length - rest.length) =
      '"' :: (delimiter ++ (value ++ ['"'])) := by
    rw [h, List.length_append, Nat.add_sub_cancel, List.take_left]
  rw [readString, hbody, takeWhile_ne_append hfree]
  dsimp only
  rw [dropWhile_ne_append hfree]
  dsimp only
  rw [hseen]

theorem next_of_spells (hspells : Spells chars t rest) (h : c.rest = chars ++ rest)
    (hplace : t.place = c.place) : c.next = .ok (some (t, (c.advance chars rest).count)) := by
  cases hspells with
  | @word _ _ place hne hink hstop hquote hopens =>
    obtain rfl : place = c.place := hplace
    have hword : FirstWord c.rest [] chars rest := ⟨h, by simp, hne, hink, hstop⟩
    rw [next_of_firstWord hword hquote, afterComment?_of_not_opensComment hopens]
    rfl
  | @string delimiter value _ place hoff hfree =>
    obtain rfl : place = c.place := hplace
    rw [next_of_quote h, readString_of_string hoff hfree h]
    rfl

/-- What reading on comes to: the end of the text, a fault, or a token behind a gap. -/
inductive Stop (c : Cursor) : Except CompileError (Option (Token × Cursor)) → Prop
  | ended : Gap c.rest [] → Stop c (.ok none)
  | unclosed {gap text : List Char} : c.rest = gap ++ text → Gap gap text → Unclosed text →
      Stop c (.ok none)
  | unended {gap tail : List Char} : c.rest = gap ++ '"' :: tail → Gap gap ('"' :: tail) →
      '"' ∉ tail → Stop c (.error (.unterminatedString (c.place.afterAll gap).line))
  | token {gap chars rest : List Char} {t : Token} : c.rest = gap ++ (chars ++ rest) →
      Gap gap (chars ++ rest) → Spells chars t rest → t.place = c.place.afterAll gap →
      Stop c (.ok (some (t, (c.advance (gap ++ chars) rest).count)))

theorem Stop.next_eq {outcome : Except CompileError (Option (Token × Cursor))}
    (h : c.Stop outcome) : c.next = outcome := by
  cases h with
  | ended hgap =>
    rw [next_of_gap hgap (List.append_nil c.rest).symm]
    exact next_of_nil rfl
  | unclosed hc hgap hunclosed =>
    rw [next_of_gap hgap hc]
    exact next_of_unclosed hunclosed
  | unended hc hgap hfree =>
    rw [next_of_gap hgap hc]
    exact next_of_unended rfl hfree
  | token hc hgap hspells hplace =>
    rw [next_of_gap hgap hc, next_of_spells hspells rfl hplace]
    simp only [advance, Place.afterAll_append]

theorem stop_next (c : Cursor) : c.Stop c.next := by
  have hstop : ∃ outcome, c.Stop outcome := by
    obtain ⟨gap, rest, hc, hgap, hfront⟩ := exists_front c.rest
    cases hfront with
    | nil =>
      rw [List.append_nil] at hc
      exact ⟨_, .ended (hc ▸ hgap)⟩
    | unclosed hunclosed => exact ⟨_, .unclosed hc hgap hunclosed⟩
    | unended hfree => exact ⟨_, .unended hc hgap hfree⟩
    | token hspells => exact ⟨_, .token hc hgap (hspells.move (c.place.afterAll gap)) rfl⟩
  obtain ⟨outcome, hstop⟩ := hstop
  exact hstop.next_eq ▸ hstop

end Cursor

/-! ### The cut of a text -/

/-- The place of a character that stands behind others: a line for each of their line ends, and a
column for each of those since the last one. -/
def Place.behind (seen : List Char) : Place :=
  ⟨1 + seen.count '\n', 1 + (seen.reverse.takeWhile (· ≠ '\n')).length⟩

theorem Place.after_behind (seen : List Char) (c : Char) :
    (Place.behind seen).after c = .behind (seen ++ [c]) := by
  unfold Place.after Place.behind
  split_ifs with hc
  · subst hc
    simp [Nat.add_assoc]
  · simp [hc, Nat.add_comm]

theorem Place.afterAll_behind (seen cs : List Char) :
    (Place.behind seen).afterAll cs = .behind (seen ++ cs) := by
  induction cs generalizing seen with
  | nil => rw [List.append_nil, afterAll_nil]
  | cons c cs ih =>
    have hstep : (Place.behind seen).afterAll (c :: cs) =
        ((Place.behind seen).after c).afterAll cs := rfl
    rw [hstep, after_behind, ih, List.append_assoc, List.singleton_append]

/-- A text, with what comes before it, is cut into gaps and tokens, up to its end or to a string
without one. Only the last gap may hold a comment without an end. -/
inductive Lexes : List Char → List Char → List Token → Option CompileError → Prop
  | ended {seen gap : List Char} : Gap gap [] → Lexes seen gap [] none
  | unclosed {seen gap text : List Char} : Gap gap text → Unclosed text →
      Lexes seen (gap ++ text) [] none
  | unended {seen gap tail : List Char} : Gap gap ('"' :: tail) → '"' ∉ tail →
      Lexes seen (gap ++ '"' :: tail) []
        (some (.unterminatedString (Place.behind (seen ++ gap)).line))
  | token {seen gap chars rest : List Char} {t : Token} {ts : List Token}
      {fault : Option CompileError} : Gap gap (chars ++ rest) → Spells chars t rest →
      t.place = .behind (seen ++ gap) → Lexes (seen ++ gap ++ chars) rest ts fault →
      Lexes seen (gap ++ (chars ++ rest)) (t :: ts) fault

/-- Reading one token after the other. -/
inductive Cursor.Yields : Cursor → List Token → Cursor → Prop
  | nil (c : Cursor) : Yields c [] c
  | cons {c after last : Cursor} {t : Token} {ts : List Token} :
      c.next = .ok (some (t, after)) → Yields after ts last → Yields c (t :: ts) last

namespace Cursor
variable {c after last : Cursor} {t : Token} {ts : List Token} {seen rest : List Char}
  {fault : Option CompileError}

theorem tokens_eq (c : Cursor) : c.tokens =
    match c.next with
    | .error e => ([], some e, c)
    | .ok none => ([], none, c)
    | .ok (some (t, after)) => (t :: after.tokens.1, after.tokens.2.1, after.tokens.2.2) := by
  rw [tokens]
  split
  all_goals
    rename_i h
    rw [h]

theorem yields_tokens (c : Cursor) : c.Yields c.tokens.1 c.tokens.2.2 := by
  fun_induction tokens c with
  | case1 c => exact .nil c
  | case2 c => exact .nil c
  | case3 c t after h ts fault last hrest ih =>
    rw [hrest] at ih
    exact .cons h ih

theorem consumed_next (h : c.next = .ok (some (t, after))) : after.consumed = c.consumed + 1 := by
  have hstop := stop_next c
  rw [h] at hstop
  cases hstop
  rfl

theorem Yields.consumed_eq (h : c.Yields ts last) : last.consumed = c.consumed + ts.length := by
  induction h with
  | nil => rfl
  | cons hnext _ ih =>
    rw [ih, consumed_next hnext, List.length_cons]
    omega

theorem place_advance (hplace : c.place = .behind seen) (gap chars rest : List Char) :
    (c.advance (gap ++ chars) rest).count.place = .behind (seen ++ gap ++ chars) := by
  change c.place.afterAll (gap ++ chars) = _
  rw [hplace, Place.afterAll_behind, List.append_assoc]

/-- What is read token by token is a cut of the text. -/
theorem lexes_tokens_of_place (hplace : c.place = .behind seen) :
    Lexes seen c.rest c.tokens.1 c.tokens.2.1 := by
  induction hn : c.rest.length using Nat.strong_induction_on generalizing c seen with
  | _ n ih =>
    subst hn
    have hstop := stop_next c
    rw [tokens_eq]
    generalize c.next = outcome at hstop
    cases hstop with
    | ended hgap => exact .ended hgap
    | unclosed hc hgap hunclosed =>
      rw [hc]
      exact .unclosed hgap hunclosed
    | unended hc hgap hfree =>
      rw [hc, hplace, Place.afterAll_behind]
      exact .unended hgap hfree
    | @token gap chars rest t hc hgap hspells ht =>
      have hlt : rest.length < c.rest.length := by
        have hchars := List.length_pos_iff.mpr hspells.ne_nil
        rw [hc]
        simp only [List.length_append]
        omega
      rw [hplace, Place.afterAll_behind] at ht
      rw [hc]
      exact .token hgap hspells ht (ih _ hlt (place_advance hplace gap chars rest) rfl)

/-- Each cut of a text is read token by token. -/
theorem tokens_of_lexes (h : Lexes seen rest ts fault) (hrest : c.rest = rest)
    (hplace : c.place = .behind seen) : c.tokens.1 = ts ∧ c.tokens.2.1 = fault := by
  induction h generalizing c with
  | ended hgap =>
    rw [tokens_eq, (Stop.ended (hrest ▸ hgap)).next_eq]
    exact ⟨rfl, rfl⟩
  | unclosed hgap hunclosed =>
    rw [tokens_eq, (Stop.unclosed hrest hgap hunclosed).next_eq]
    exact ⟨rfl, rfl⟩
  | unended hgap hfree =>
    rw [tokens_eq, (Stop.unended hrest hgap hfree).next_eq, hplace, Place.afterAll_behind]
    exact ⟨rfl, rfl⟩
  | @token seen gap chars rest t ts fault hgap hspells ht _ ih =>
    rw [← Place.afterAll_behind, ← hplace] at ht
    obtain ⟨rfl, rfl⟩ := ih rfl (place_advance hplace gap chars rest)
    rw [tokens_eq, (Stop.token hrest hgap hspells ht).next_eq]
    exact ⟨rfl, rfl⟩

end Cursor

/-- A text has one cut into gaps and tokens. Reading token by token yields the tokens of this cut
and the fault it stops at, and has at each point counted the tokens before it. -/
theorem lexes_tokens (text : String) :
    Lexes [] text.toList (ofText text).tokens.1 (ofText text).tokens.2.1 ∧
      (∀ ts fault, Lexes [] text.toList ts fault →
        (ofText text).tokens.1 = ts ∧ (ofText text).tokens.2.1 = fault) ∧
      Yields (ofText text) (ofText text).tokens.1 (ofText text).tokens.2.2 ∧
      ∀ ts last, Yields (ofText text) ts last → last.consumed = ts.length := by
  refine ⟨lexes_tokens_of_place (c := ofText text) rfl, fun ts fault h => tokens_of_lexes h rfl rfl,
    yields_tokens _, fun ts last h => ?_⟩
  rw [h.consumed_eq]
  exact Nat.zero_add _

end StackEffect
