import StackEffect.Cursor

/-!
The phrases of a text: a definition, the declaration of an external word, a request to see a word,
or a token by itself. How a text falls into phrases hangs on the session in one point: whether a
token takes the next one as the name of a word to see. Every phrase leaves less text
(`length_nextPhrase_lt`).
-/
namespace StackEffect

/-- A definition whose end is missing carries what stands in the way of it. -/
inductive Phrase
  | definition (name : String) (body : List Token) (fault : Option CompileError)
  | declaration (name : String) (inputs outputs : List String)
  | see (name : String)
  | token (t : Token)
deriving DecidableEq

namespace Cursor

/-- The tokens of a body up to its `;`, with the cursor behind it or what comes before it. A
definition cannot hold another one, nor a declaration. -/
def bodyTokens (name : String) (c : Cursor) : List Token × Except CompileError Cursor :=
  match _h : c.next with
  | .error e => ([], .error e)
  | .ok none => ([], .error (.unterminatedDefinition name))
  | .ok (some (t, after)) =>
    if t.isWord ";" then ([], .ok after)
    else if t.isWord ":" || t.isWord "extern" then
      ([], .error (.unsupported (.opensInside t.text name)))
    else
      let (body, rest) := after.bodyTokens name
      (t :: body, rest)
termination_by c.rest.length
decreasing_by exact length_next_lt ‹_›

theorem length_bodyTokens_lt {name : String} {c rest : Cursor}
    (h : (c.bodyTokens name).2 = .ok rest) : rest.rest.length < c.rest.length := by
  fun_induction bodyTokens name c with
  | case1 => simp at h
  | case2 => simp at h
  | case3 c t after hn ht => cases h; exact length_next_lt hn
  | case4 => simp at h
  | case5 c t after hn ht ht' body r hb ih =>
    exact Nat.lt_trans (ih (by simpa [hb] using h)) (length_next_lt hn)

def definitionPhrase (c : Cursor) : Except CompileError (Phrase × Cursor) := do
  match ← c.next with
  | none => throw (.unterminatedDefinition "")
  | some (t, after) =>
    match after.bodyTokens t.text with
    | (body, .ok rest) => return (.definition t.text body none, rest)
    | (body, .error fault) => return (.definition t.text body (some fault), after)

def declarationFault (fault : DeclarationFault) : CompileError :=
  .arity "extern" (.declaration fault)

/-- The type letters on both sides of `--`, up to the closing bracket. -/
def typeLetters (separated : Bool) (c : Cursor) :
    Except CompileError (List String × List String × Cursor) :=
  match _h : c.nextWord with
  | none => .error (declarationFault .unterminated)
  | some (t, after) =>
    if t.text = ")" then
      if separated then .ok ([], [], after) else .error (declarationFault .missingSeparator)
    else if t.text = "--" then
      if separated then .error (declarationFault .repeatedSeparator) else after.typeLetters true
    else
      (after.typeLetters separated).map fun (inputs, outputs, rest) =>
        if separated then (inputs, t.text :: outputs, rest) else (t.text :: inputs, outputs, rest)
termination_by c.rest.length
decreasing_by all_goals exact length_nextWord_lt ‹_›

theorem length_typeLetters_lt {separated : Bool} {c rest : Cursor} {inputs outputs : List String}
    (h : c.typeLetters separated = .ok (inputs, outputs, rest)) :
    rest.rest.length < c.rest.length := by
  fun_induction typeLetters separated c generalizing inputs outputs with
  | case1 => simp at h
  | case2 c t after hn ht => cases h; exact length_nextWord_lt hn
  | case3 => simp at h
  | case4 => simp at h
  | case5 separated c t after hn ht ht' hs ih => exact Nat.lt_trans (ih h) (length_nextWord_lt hn)
  | case6 separated c t after hn ht ht' ih =>
    cases hr : after.typeLetters separated with
    | error e => simp [hr, Except.map] at h
    | ok r =>
      obtain ⟨i, o, d⟩ := r
      have hd : d = rest := by
        cases separated <;> simp_all [Except.map]
      subst hd
      exact Nat.lt_trans (ih hr) (length_nextWord_lt hn)

/-- A phrase that starts with `extern`. Its words are taken as they come: a comment or a string
has no place in it. -/
def declarationPhrase (c : Cursor) : Except CompileError (Phrase × Cursor) := do
  match c.nextWord with
  | none => throw (declarationFault .missingName)
  | some (name, c) =>
    match c.nextWord with
    | none => throw (declarationFault .missingOpen)
    | some (bracket, c) =>
      if bracket.text = "(" then
        let (inputs, outputs, rest) ← c.typeLetters false
        return (.declaration name.text inputs outputs, rest)
      else throw (declarationFault .missingOpen)

def seePhrase (c : Cursor) : Except CompileError (Phrase × Cursor) := do
  match ← c.next with
  | none => throw (.unknownToken "see")
  | some (t, rest) => return (.see t.text, rest)

def phraseFrom (sees : Token → Bool) (t : Token) (c : Cursor) :
    Except CompileError (Phrase × Cursor) :=
  if t.isWord ":" then c.definitionPhrase
  else if t.isWord "extern" then c.declarationPhrase
  else if sees t then c.seePhrase
  else .ok (.token t, c)

theorem length_phraseFrom_le {sees : Token → Bool} {t : Token} {c rest : Cursor} {p : Phrase}
    (h : c.phraseFrom sees t = .ok (p, rest)) : rest.rest.length ≤ c.rest.length := by
  unfold phraseFrom at h
  split at h
  · simp only [definitionPhrase, bind, Except.bind] at h
    split at h <;> try contradiction
    split at h <;> try contradiction
    rename_i hn
    have hl := Nat.le_of_lt (length_next_lt hn)
    split at h <;> cases h
    · rename_i hb
      exact Nat.le_trans (Nat.le_of_lt (length_bodyTokens_lt (by rw [hb]))) hl
    · exact hl
  split at h
  · simp only [declarationPhrase, bind, Except.bind] at h
    split at h <;> try contradiction
    rename_i h₁
    split at h <;> try contradiction
    rename_i h₂
    split at h <;> try contradiction
    split at h <;> try contradiction
    rename_i h₃
    cases h
    have := length_nextWord_lt h₁
    have := length_nextWord_lt h₂
    have := length_typeLetters_lt h₃
    omega
  split at h
  · simp only [seePhrase, bind, Except.bind] at h
    split at h <;> try contradiction
    split at h <;> try contradiction
    rename_i hn
    cases h
    exact Nat.le_of_lt (length_next_lt hn)
  · cases h
    exact Nat.le_refl _

/-- The next phrase, if there is one. `sees` tells which tokens ask for the name of a word to
see. -/
def nextPhrase (sees : Token → Bool) (c : Cursor) :
    Except CompileError (Option (Phrase × Cursor)) := do
  match ← c.next with
  | none => return none
  | some (t, after) => return some (← after.phraseFrom sees t)

theorem length_nextPhrase_lt {sees : Token → Bool} {c rest : Cursor} {p : Phrase}
    (h : c.nextPhrase sees = .ok (some (p, rest))) : rest.rest.length < c.rest.length := by
  simp only [nextPhrase, bind, Except.bind, pure, Except.pure] at h
  split at h
  · simp at h
  split at h
  · simp at h
  rename_i hn
  split at h
  · simp at h
  rename_i hp
  cases h
  exact Nat.lt_of_le_of_lt (length_phraseFrom_le hp) (length_next_lt hn)

end Cursor
end StackEffect
