import StackEffect.Proofs.Cursor.Declaration
import StackEffect.Proofs.Cursor.Lexing

/-!
The tokens that a phrase is read from. All of them are counted, those of bodies and names and the words
of declarations, so that the count at a cursor is the number of tokens in front of it
(`consumed_of_nextPhrase`).
-/
namespace StackEffect.Cursor
variable {c rest : Cursor} {name : String} {sees : Token → Bool}

/-- The tokens of a body with the one that ends it. -/
def bodyStream (c : Cursor) : List Token :=
  match _h : c.next with
  | .error _ | .ok none => []
  | .ok (some (t, after)) => if t.isWord ";" then [t] else t :: after.bodyStream
termination_by c.rest.length
decreasing_by exact length_next_lt ‹_›

def letterStream (c : Cursor) : List Token :=
  match _h : c.nextWord with
  | none => []
  | some (t, after) => if t.text = ")" then [t] else t :: after.letterStream
termination_by c.rest.length
decreasing_by exact length_nextWord_lt ‹_›

def definitionStream (c : Cursor) : List Token :=
  match c.next with
  | .error _ | .ok none => []
  | .ok (some (name, after)) => name :: after.bodyStream

def declarationStream (c : Cursor) : List Token :=
  match c.nextWord with
  | none => []
  | some (name, named) =>
    match named.nextWord with
    | none => [name]
    | some (bracket, opened) => name :: bracket :: opened.letterStream

def seeStream (c : Cursor) : List Token :=
  match c.next with
  | .error _ | .ok none => []
  | .ok (some (name, _)) => [name]

/-- The tokens of the phrase at a cursor. -/
def phraseStream (sees : Token → Bool) (c : Cursor) : List Token :=
  match c.next with
  | .error _ | .ok none => []
  | .ok (some (t, after)) =>
    if t.isWord ":" then t :: after.definitionStream
    else if t.isWord "extern" then t :: after.declarationStream
    else if sees t then t :: after.seeStream
    else [t]

theorem bodyStream_eq (c : Cursor) : c.bodyStream =
    match c.next with
    | .error _ | .ok none => []
    | .ok (some (t, after)) => if t.isWord ";" then [t] else t :: after.bodyStream := by
  rw [bodyStream]
  split
  all_goals
    rename_i h
    rw [h]

theorem letterStream_eq (c : Cursor) : c.letterStream =
    match c.nextWord with
    | none => []
    | some (t, after) => if t.text = ")" then [t] else t :: after.letterStream := by
  rw [letterStream]
  split
  all_goals
    rename_i h
    rw [h]

theorem consumed_nextWord {t : Token} {after : Cursor} (h : c.nextWord = some (t, after)) :
    after.consumed = c.consumed + 1 := by
  obtain ⟨_, _, -, -, -, hconsumed⟩ := exists_firstWord_of_nextWord h
  exact hconsumed

theorem consumed_of_body {body : List Token} (h : c.bodyTokens name = (body, .ok rest)) :
    rest.consumed = c.consumed + c.bodyStream.length := by
  fun_induction bodyTokens name c generalizing body with
  | case1 => cases h
  | case2 => cases h
  | case3 c t after hn ht =>
    cases h
    rw [bodyStream_eq, hn, consumed_next hn]
    simp [ht]
  | case4 => cases h
  | case5 c t after hn ht ht' body' r hb ih =>
    cases h
    rw [bodyStream_eq, hn, ih hb, consumed_next hn]
    simp only [ht, Bool.false_eq_true, if_false, List.length_cons]
    omega

theorem consumed_of_letters {separated : Bool} {inputs outputs : List String}
    (h : c.typeLetters separated = .ok (inputs, outputs, rest)) :
    rest.consumed = c.consumed + c.letterStream.length := by
  have hstep : ∀ {c after : Cursor} {t : Token}, c.nextWord = some (t, after) → ¬t.text = ")" →
      rest.consumed = after.consumed + after.letterStream.length →
      rest.consumed = c.consumed + c.letterStream.length := by
    intro c after t hn ht hrest
    rw [letterStream_eq, hn, hrest, consumed_nextWord hn]
    simp only [ht, if_false, List.length_cons]
    omega
  fun_induction typeLetters separated c generalizing inputs outputs with
  | case1 => cases h
  | case2 c t after hn ht =>
    cases h
    rw [letterStream_eq, hn, consumed_nextWord hn]
    simp [ht]
  | case3 => cases h
  | case4 => cases h
  | case5 separated c t after hn ht ht' hs ih => exact hstep hn ht (ih h)
  | case6 separated c t after hn ht ht' ih =>
    cases hr : after.typeLetters separated with
    | error e =>
      rw [hr] at h
      cases h
    | ok read =>
      obtain ⟨inputs', outputs', rest'⟩ := read
      rw [hr] at h
      cases separated <;> cases h <;> exact hstep hn ht (ih hr)

/-- What is counted while a phrase is read to its end are its tokens. -/
theorem consumed_of_nextPhrase {p : Phrase} (h : c.nextPhrase sees = .ok (some (p, rest)))
    (hp : p.fault? = none) : rest.consumed = c.consumed + (c.phraseStream sees).length := by
  cases reads_of_nextPhrase h with
  | definition hn hcolon hname hbody =>
    rw [phraseStream, hn]
    simp only [hcolon, if_true, definitionStream, hname, consumed_of_body hbody,
      consumed_next hname, consumed_next hn, List.length_cons]
    omega
  | unended => cases hp
  | declaration hn hcolon hexternal hname hbracket ht hletters =>
    rw [phraseStream, hn]
    simp only [hcolon, hexternal, if_true, Bool.false_eq_true, if_false, declarationStream, hname,
      hbracket, consumed_of_letters hletters, consumed_nextWord hbracket, consumed_nextWord hname,
      consumed_next hn, List.length_cons]
    omega
  | see hn hcolon hexternal hsees hname =>
    rw [phraseStream, hn]
    simp only [hcolon, hexternal, hsees, if_true, Bool.false_eq_true, if_false, seeStream, hname,
      consumed_next hname, consumed_next hn, List.length_cons, List.length_nil]
  | token hn hcolon hexternal hsees =>
    rw [phraseStream, hn]
    simp only [hcolon, hexternal, hsees, Bool.false_eq_true, if_false, consumed_next hn,
      List.length_cons, List.length_nil]

theorem phraseStream_of_token {t : Token} (h : c.nextPhrase sees = .ok (some (.token t, rest))) :
    c.phraseStream sees = [t] := by
  cases reads_of_nextPhrase h with
  | token hn hcolon hexternal hsees => simp [phraseStream, hn, hcolon, hexternal, hsees]

end StackEffect.Cursor
