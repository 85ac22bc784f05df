import StackEffect.Blank
import StackEffect.CompileError
import StackEffect.Token

/-!
Reading tokens off a text. Tokens are separated by blanks. A word that is exactly `\` starts a
comment up to the end of its line; a word that is exactly `(` or `(*` starts one up to the next
word that is exactly `)` or `*)`. A string starts with a quote and ends with the next one; one
blank after the first quote is no part of it. Every token read leaves less text
(`length_nextWord_lt`, `length_next_lt`).
-/
namespace StackEffect

/-- What is still to be read, where it starts, and how many tokens came before. -/
structure Cursor where
  rest : List Char
  place : Place := {}
  consumed : Nat := 0
deriving DecidableEq, Inhabited

namespace Cursor

def ofText (text : String) : Cursor := { rest := text.toList }

def advance (c : Cursor) (seen rest : List Char) : Cursor :=
  { c with rest, place := c.place.afterAll seen }

def skipWhile (p : Char → Bool) (c : Cursor) : Cursor :=
  c.advance (c.rest.takeWhile p) (c.rest.dropWhile p)

def skipOne (c : Cursor) : Cursor := c.advance (c.rest.take 1) (c.rest.drop 1)

def count (c : Cursor) : Cursor := { c with consumed := c.consumed + 1 }

def exhausted (c : Cursor) : Cursor := c.advance c.rest []

theorem length_skipWhile_le (p : Char → Bool) (c : Cursor) :
    (c.skipWhile p).rest.length ≤ c.rest.length := length_dropWhile_le p c.rest

theorem length_skipOne_le (c : Cursor) : c.skipOne.rest.length ≤ c.rest.length := by
  simp [skipOne, advance]

/-- The next run of characters that are not blank, whatever it looks like. -/
def rawWord (c : Cursor) : Option (Token × Cursor) :=
  let start := c.skipWhile isBlank
  if start.rest = [] then none
  else
    let text := start.rest.takeWhile isInk
    some (⟨String.ofList text, number? text, start.place⟩, start.skipWhile isInk)

theorem length_rawWord_lt {c : Cursor} {t : Token} {after : Cursor}
    (h : c.rawWord = some (t, after)) : after.rest.length < c.rest.length := by
  simp only [rawWord] at h
  split at h
  · contradiction
  · simp only [Option.some.injEq, Prod.mk.injEq] at h
    obtain ⟨-, rfl⟩ := h
    cases hr : c.rest.dropWhile isBlank with
    | nil => simp_all [skipWhile, advance]
    | cons x rest =>
      have hx : isInk x = true := by
        have := List.head?_dropWhile_not isBlank c.rest
        simp_all [isInk]
      have := length_after_word_lt hr
      simpa [skipWhile, advance, hr, hx] using this

/-- The next word with comments and strings taken as they come. -/
def nextWord (c : Cursor) : Option (Token × Cursor) :=
  c.rawWord.map fun (t, after) => (t, after.count)

theorem length_nextWord_lt {c : Cursor} {t : Token} {after : Cursor}
    (h : c.nextWord = some (t, after)) : after.rest.length < c.rest.length := by
  simp only [nextWord, Option.map_eq_some_iff, Prod.mk.injEq] at h
  obtain ⟨⟨u, b⟩, hr, -, rfl⟩ := h
  exact (length_rawWord_lt hr :)

def pastWord? (close : String) (c : Cursor) : Option Cursor :=
  match _h : c.rawWord with
  | none => none
  | some (t, after) => if t.text = close then some after else pastWord? close after
termination_by c.rest.length
decreasing_by exact length_rawWord_lt ‹_›

theorem length_pastWord?_le {close : String} {c after : Cursor}
    (h : c.pastWord? close = some after) : after.rest.length ≤ c.rest.length := by
  fun_induction pastWord? close c with
  | case1 => contradiction
  | case2 c t b hr ht => cases h; exact Nat.le_of_lt (length_rawWord_lt hr)
  | case3 c t b hr ht ih => exact Nat.le_trans (ih h) (Nat.le_of_lt (length_rawWord_lt hr))

/-- A comment that is never closed takes up the rest of the text. -/
def skipPast (close : String) (c : Cursor) : Cursor := (c.pastWord? close).getD c.exhausted

theorem length_skipPast_le (close : String) (c : Cursor) :
    (c.skipPast close).rest.length ≤ c.rest.length := by
  unfold skipPast
  cases h : c.pastWord? close with
  | none => simp [exhausted, advance]
  | some after => simpa using length_pastWord?_le h

def skipLine (c : Cursor) : Cursor := (c.skipWhile (· ≠ '\n')).skipOne

theorem length_skipLine_le (c : Cursor) : c.skipLine.rest.length ≤ c.rest.length :=
  Nat.le_trans (length_skipOne_le _) (length_skipWhile_le _ c)

/-- What follows the comment that `word` starts, if it starts one. -/
def afterComment? (word : String) (c : Cursor) : Option Cursor :=
  if word = "\\" then some c.skipLine
  else if word = "(" then some (c.skipPast ")")
  else if word = "(*" then some (c.skipPast "*)")
  else none

theorem length_afterComment?_le {word : String} {c after : Cursor}
    (h : afterComment? word c = some after) : after.rest.length ≤ c.rest.length := by
  unfold afterComment? at h
  split at h
  · cases h; exact length_skipLine_le c
  split at h
  · cases h; exact length_skipPast_le _ c
  split at h
  · cases h; exact length_skipPast_le _ c
  · contradiction

def stringBody : List Char → List Char
  | c :: rest => if isBlank c then rest else c :: rest
  | [] => []

def readString (start : Cursor) : Except CompileError (Token × Cursor) :=
  let body := stringBody (start.rest.drop 1)
  let text := String.ofList (body.takeWhile (· ≠ '"'))
  match body.dropWhile (· ≠ '"') with
  | [] => .error (.unterminatedString start.place.line)
  | _ :: rest =>
    let seen := start.rest.take (start.rest.length - rest.length)
    .ok (⟨"\"" ++ text ++ "\"", some (.str text), start.place⟩, (start.advance seen rest).count)

theorem length_readString_lt {start after : Cursor} {t : Token}
    (h : start.readString = .ok (t, after)) : after.rest.length < start.rest.length := by
  simp only [readString] at h
  split at h
  · contradiction
  · rename_i x rest hd
    simp only [Except.ok.injEq, Prod.mk.injEq] at h
    obtain ⟨-, rfl⟩ := h
    have h₁ := length_dropWhile_le (· ≠ '"') (stringBody (start.rest.drop 1))
    have h₂ : (stringBody (start.rest.drop 1)).length ≤ (start.rest.drop 1).length := by
      cases start.rest.drop 1 with
      | nil => simp [stringBody]
      | cons y ys => simp only [stringBody]; split <;> simp
    rw [hd] at h₁
    simp only [List.length_drop, List.length_cons] at *
    simp only [count, advance]
    omega

def next (c : Cursor) : Except CompileError (Option (Token × Cursor)) :=
  let start := c.skipWhile isBlank
  if start.rest.head? = some '"' then start.readString.map some
  else
    match _h : start.rawWord with
    | none => .ok none
    | some (t, after) =>
      match _h' : afterComment? t.text after with
      | some behind => behind.next
      | none => .ok (some (t, after.count))
termination_by c.rest.length
decreasing_by
  exact Nat.lt_of_le_of_lt (length_afterComment?_le ‹_›)
    (Nat.lt_of_lt_of_le (length_rawWord_lt ‹_›) (length_skipWhile_le _ c))

theorem length_next_lt {c after : Cursor} {t : Token} (h : c.next = .ok (some (t, after))) :
    after.rest.length < c.rest.length := by
  fun_induction next c with
  | case1 c start hq =>
    have hs := length_skipWhile_le isBlank c
    cases hr : start.readString with
    | error e => simp [hr, Except.map] at h
    | ok r =>
      simp only [hr, Except.map, Except.ok.injEq, Option.some.injEq] at h
      subst h
      exact Nat.lt_of_lt_of_le (length_readString_lt hr) hs
  | case2 => simp at h
  | case3 c start hq t' a hr b hc ih =>
    exact Nat.lt_trans (ih h) (Nat.lt_of_le_of_lt (length_afterComment?_le hc)
      (Nat.lt_of_lt_of_le (length_rawWord_lt hr) (length_skipWhile_le _ c)))
  | case4 c start hq t' a hr hc =>
    cases h
    have hl := length_rawWord_lt hr
    exact Nat.lt_of_lt_of_le (hl :) (length_skipWhile_le _ c)

/-- All tokens up to the end of the text or the first fault, with the cursor behind the last
one. -/
def tokens (c : Cursor) : List Token × Option CompileError × Cursor :=
  match _h : c.next with
  | .error e => ([], some e, c)
  | .ok none => ([], none, c)
  | .ok (some (t, after)) =>
    let (ts, fault, last) := after.tokens
    (t :: ts, fault, last)
termination_by c.rest.length
decreasing_by exact length_next_lt ‹_›

/-- Whether the text stops inside a definition, or inside the words of a declaration, so that more
lines are to come. -/
def isIncomplete (inDefinition : Bool) (c : Cursor) : Bool :=
  match _h : c.next with
  | .error _ => false
  | .ok none => inDefinition
  | .ok (some (t, after)) =>
    if t.isWord ":" then after.isIncomplete true
    else if t.isWord ";" then after.isIncomplete false
    else if t.isWord "extern" && !inDefinition then
      match _h' : after.pastWord? ")" with
      | none => true
      | some behind => behind.isIncomplete inDefinition
    else after.isIncomplete inDefinition
termination_by c.rest.length
decreasing_by
  · exact length_next_lt ‹_›
  · exact length_next_lt ‹_›
  · exact Nat.lt_of_le_of_lt (length_pastWord?_le ‹_›) (length_next_lt ‹_›)
  · exact length_next_lt ‹_›

end Cursor

/-- Whether an interactive reader should ask for more lines before it runs the text. -/
def isIncomplete (text : String) : Bool := (Cursor.ofText text).isIncomplete false

end StackEffect
