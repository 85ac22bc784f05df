import StackEffect.Proofs.Cursor

/-!
Reading further on in a text. What is read hangs on the characters to come alone: `k` tokens and `n`
lines further on, the same phrases are read, with their places moved (`nextPhrase_later`), and a text
breaks off the same (`isIncomplete_later`).
-/
namespace StackEffect

def Place.later (n : Nat) (p : Place) : Place := { p with line := p.line + n }

theorem Place.afterAll_later (p : Place) (n : Nat) (cs : List Char) :
    (p.later n).afterAll cs = (p.afterAll cs).later n := by
  induction cs generalizing p with
  | nil => rfl
  | cons c cs ih =>
    have hafter : (p.later n).after c = (p.after c).later n := by
      unfold after later
      split
      · rw [Nat.add_right_comm]
      · rfl
    simp only [afterAll, List.foldl_cons, hafter] at ih ⊢
    exact ih _

def Token.later (n : Nat) (t : Token) : Token := { t with place := t.place.later n }

@[simp] theorem Token.text_later (n : Nat) (t : Token) : (t.later n).text = t.text := rfl

@[simp] theorem Token.isWord_later (n : Nat) (t : Token) (text : String) :
    (t.later n).isWord text = t.isWord text := rfl

/-- Tokens that differ at most in their places. -/
def Token.Alike (t t' : Token) : Prop := t.text = t'.text ∧ t.literal = t'.literal

/-- A string that is found to have no end starts `n` lines further down. -/
def CompileError.lower (n : Nat) : CompileError → CompileError
  | .unterminatedString line => .unterminatedString (line + n)
  | e => e

def moved {α : Type} (n : Nat) (f : α → α) : Except CompileError α → Except CompileError α
  | .ok a => .ok (f a)
  | .error e => .error (e.lower n)

section Moved
variable {α β : Type} {n : Nat} {f : α → α} {g : β → β}

@[simp] theorem moved_ok (a : α) : moved n f (.ok a) = .ok (f a) := rfl

@[simp] theorem moved_error (e : CompileError) : moved n f (.error e) = .error (e.lower n) := rfl

theorem moved_map {h : α → β} (hh : ∀ a, h (f a) = g (h a)) (x : Except CompileError α) :
    (moved n f x).map h = moved n g (x.map h) := by
  cases x with
  | ok a => exact congrArg Except.ok (hh a)
  | error e => rfl

theorem moved_bind {h : α → Except CompileError β} (hh : ∀ a, h (f a) = moved n g (h a))
    (x : Except CompileError α) : (moved n f x >>= h) = moved n g (x >>= h) := by
  cases x with
  | ok a => exact hh a
  | error e => rfl

end Moved

def Phrase.later (n : Nat) : Phrase → Phrase
  | definition name body fault => .definition name (body.map (·.later n)) (fault.map (·.lower n))
  | declaration name inputs outputs => .declaration name inputs outputs
  | see name => .see name
  | token t => .token (t.later n)

namespace Cursor
variable (k n : Nat)

/-- The same text to come, `k` tokens and `n` lines further on. -/
def later (c : Cursor) : Cursor :=
  { c with place := c.place.later n, consumed := c.consumed + k }

/-! ### Words -/

@[simp] theorem rest_later (c : Cursor) : (c.later k n).rest = c.rest := rfl

theorem advance_later (c : Cursor) (seen rest : List Char) :
    (c.later k n).advance seen rest = (c.advance seen rest).later k n := by
  simp only [advance, later, Place.afterAll_later]

@[simp] theorem skipWhile_later (c : Cursor) (p : Char → Bool) :
    (c.later k n).skipWhile p = (c.skipWhile p).later k n := advance_later k n c _ _

@[simp] theorem skipOne_later (c : Cursor) : (c.later k n).skipOne = c.skipOne.later k n :=
  advance_later k n c _ _

@[simp] theorem exhausted_later (c : Cursor) : (c.later k n).exhausted = c.exhausted.later k n :=
  advance_later k n c _ _

@[simp] theorem count_later (c : Cursor) : (c.later k n).count = c.count.later k n := by
  simp only [count, later, Nat.add_right_comm]

def laterRead (x : Token × Cursor) : Token × Cursor := (x.1.later n, x.2.later k n)

theorem rawWord_later (c : Cursor) : (c.later k n).rawWord = c.rawWord.map (laterRead k n) := by
  unfold rawWord
  rw [skipWhile_later]
  dsimp only
  rw [rest_later, skipWhile_later]
  split <;> rfl

theorem nextWord_later (c : Cursor) : (c.later k n).nextWord = c.nextWord.map (laterRead k n) := by
  unfold nextWord
  rw [rawWord_later]
  cases c.rawWord with
  | none => rfl
  | some x => simp [laterRead]

theorem pastWord?_later (close : String) (c : Cursor) :
    (c.later k n).pastWord? close = (c.pastWord? close).map (later k n) := by
  fun_induction pastWord? close c with
  | case1 c h =>
    rw [pastWord?_eq, rawWord_later, h]
    rfl
  | case2 c t after h ht =>
    rw [pastWord?_eq, rawWord_later, h]
    exact if_pos ht
  | case3 c t after h ht ih =>
    rw [pastWord?_eq, rawWord_later, h]
    exact (if_neg ht).trans ih

/-! ### Tokens -/

theorem skipPast_later (close : String) (c : Cursor) :
    (c.later k n).skipPast close = (c.skipPast close).later k n := by
  unfold skipPast
  rw [pastWord?_later]
  cases c.pastWord? close with
  | none => exact exhausted_later k n c
  | some after => rfl

theorem afterComment?_later (word : String) (c : Cursor) :
    afterComment? word (c.later k n) = (afterComment? word c).map (later k n) := by
  unfold afterComment?
  split_ifs
  · simp [skipLine]
  · simp [skipPast_later]
  · simp [skipPast_later]
  · rfl

theorem readString_later (c : Cursor) :
    (c.later k n).readString = moved n (laterRead k n) c.readString := by
  unfold readString
  rw [rest_later]
  dsimp only
  split
  · rfl
  · rw [advance_later, count_later]
    rfl

theorem next_later (c : Cursor) :
    (c.later k n).next = moved n (Option.map (laterRead k n)) c.next := by
  fun_induction next c with
  | case1 c start hq =>
    rw [next_eq, skipWhile_later, rest_later, if_pos hq, readString_later]
    refine moved_map (fun _ => ?_) _
    rfl
  | case2 c start hq h =>
    rw [next_eq, skipWhile_later, rest_later, if_neg hq, rawWord_later, h]
    rfl
  | case3 c start hq t after h behind hc ih =>
    rw [next_eq, skipWhile_later, rest_later, if_neg hq, rawWord_later, h]
    simp only [Option.map_some, laterRead, Token.text_later, afterComment?_later, hc]
    exact ih
  | case4 c start hq t after h hc =>
    rw [next_eq, skipWhile_later, rest_later, if_neg hq, rawWord_later, h]
    simp only [Option.map_some, laterRead, Token.text_later, afterComment?_later, hc, count_later]
    rfl

/-! ### Phrases -/

theorem bodyTokens_later (name : String) (c : Cursor) : (c.later k n).bodyTokens name =
    ((c.bodyTokens name).1.map (·.later n), moved n (later k n) (c.bodyTokens name).2) := by
  fun_induction bodyTokens name c with
  | case1 c e h =>
    rw [bodyTokens_eq, next_later, h]
    rfl
  | case2 c h =>
    rw [bodyTokens_eq, next_later, h]
    rfl
  | case3 c t after h ht =>
    rw [bodyTokens_eq, next_later, h]
    exact if_pos ht
  | case4 c t after h ht ht' =>
    rw [bodyTokens_eq, next_later, h]
    exact (if_neg ht).trans (if_pos ht')
  | case5 c t after h ht ht' body rest hb ih =>
    rw [bodyTokens_eq, next_later, h]
    simp only [moved_ok, Option.map_some, laterRead, Token.isWord_later, ht, ht', ih, hb]
    rfl

def laterPhrase (x : Phrase × Cursor) : Phrase × Cursor := (x.1.later n, x.2.later k n)

theorem definitionPhrase_later (c : Cursor) :
    (c.later k n).definitionPhrase = moved n (laterPhrase k n) c.definitionPhrase := by
  unfold definitionPhrase
  rw [next_later]
  refine moved_bind (fun read => ?_) c.next
  cases read with
  | none => rfl
  | some x =>
    simp only [Option.map_some, laterRead, Token.text_later, bodyTokens_later]
    obtain ⟨body, rest⟩ := x.2.bodyTokens x.1.text
    cases rest <;> rfl

def laterLetters (x : List String × List String × Cursor) : List String × List String × Cursor :=
  (x.1, x.2.1, x.2.2.later k n)

theorem typeLetters_later (separated : Bool) (c : Cursor) :
    (c.later k n).typeLetters separated = moved n (laterLetters k n) (c.typeLetters separated) := by
  fun_induction typeLetters separated c with
  | case1 separated c h =>
    rw [typeLetters_eq, nextWord_later, h]
    rfl
  | case2 c t after h ht =>
    rw [typeLetters_eq, nextWord_later, h]
    exact if_pos ht
  | case3 separated c t after h ht hs =>
    rw [typeLetters_eq, nextWord_later, h]
    simp only [Option.map_some, laterRead, Token.text_later, ht, if_true, hs]
    rfl
  | case4 c t after h ht ht' =>
    rw [typeLetters_eq, nextWord_later, h]
    exact (if_neg ht).trans (if_pos ht')
  | case5 separated c t after h ht ht' hs ih =>
    rw [typeLetters_eq, nextWord_later, h]
    simp only [Option.map_some, laterRead, Token.text_later, ht', if_true, hs]
    exact ih
  | case6 separated c t after h ht ht' ih =>
    rw [typeLetters_eq, nextWord_later, h]
    simp only [Option.map_some, laterRead, Token.text_later, ht, ht', if_false, ih]
    refine moved_map (fun x => ?_) _
    cases separated <;> rfl

theorem declarationPhrase_later (c : Cursor) :
    (c.later k n).declarationPhrase = moved n (laterPhrase k n) c.declarationPhrase := by
  unfold declarationPhrase
  rw [nextWord_later]
  cases c.nextWord with
  | none => rfl
  | some x =>
    simp only [Option.map_some, laterRead, nextWord_later]
    cases x.2.nextWord with
    | none => rfl
    | some y =>
      simp only [Option.map_some, laterRead, Token.text_later, typeLetters_later]
      split_ifs
      · refine moved_bind (fun _ => ?_) _
        rfl
      · rfl

theorem seePhrase_later (c : Cursor) :
    (c.later k n).seePhrase = moved n (laterPhrase k n) c.seePhrase := by
  unfold seePhrase
  rw [next_later]
  refine moved_bind (fun read => ?_) c.next
  cases read <;> rfl

/-- Further on in a text the same phrases are read, if it does not hang on its place whether a token
asks for a word to see. -/
theorem nextPhrase_later {sees : Token → Bool} (hsees : ∀ t, sees (t.later n) = sees t)
    (c : Cursor) : (c.later k n).nextPhrase sees =
      moved n (Option.map (laterPhrase k n)) (c.nextPhrase sees) := by
  unfold nextPhrase
  rw [next_later]
  refine moved_bind (fun read => ?_) c.next
  cases read with
  | none => rfl
  | some x =>
    have hphrase : (x.2.later k n).phraseFrom sees (x.1.later n) =
        moved n (laterPhrase k n) (x.2.phraseFrom sees x.1) := by
      unfold phraseFrom
      simp only [Token.isWord_later, hsees]
      split_ifs
      · exact definitionPhrase_later k n _
      · exact declarationPhrase_later k n _
      · exact seePhrase_later k n _
      · rfl
    simp only [Option.map_some, laterRead, hphrase]
    refine moved_bind (fun _ => ?_) _
    rfl

/-! ### Texts that break off -/

theorem isIncomplete_later (inDefinition : Bool) (c : Cursor) :
    (c.later k n).isIncomplete inDefinition = c.isIncomplete inDefinition := by
  fun_induction isIncomplete inDefinition c with
  | case1 inDefinition c e h =>
    rw [isIncomplete_eq, next_later, h]
    rfl
  | case2 inDefinition c h =>
    rw [isIncomplete_eq, next_later, h]
    rfl
  | case3 inDefinition c t after h ht ih =>
    rw [isIncomplete_eq, next_later, h]
    exact (if_pos ht).trans ih
  | case4 inDefinition c t after h ht ht' ih =>
    rw [isIncomplete_eq, next_later, h]
    exact (if_neg ht).trans ((if_pos ht').trans ih)
  | case5 inDefinition c t after h ht ht' he hp =>
    rw [isIncomplete_eq, next_later, h]
    simp only [moved_ok, Option.map_some, laterRead, Token.isWord_later, ht, ht', he, if_true,
      pastWord?_later, hp]
    rfl
  | case6 inDefinition c t after h ht ht' he behind hp ih =>
    rw [isIncomplete_eq, next_later, h]
    simp only [moved_ok, Option.map_some, laterRead, Token.isWord_later, ht, ht', he, if_true,
      pastWord?_later, hp]
    exact ih
  | case7 inDefinition c t after h ht ht' he ih =>
    rw [isIncomplete_eq, next_later, h]
    exact (if_neg ht).trans ((if_neg ht').trans ((if_neg he).trans ih))

end Cursor
end StackEffect
