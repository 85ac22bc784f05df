import Mathlib.Data.List.DropRight
import StackEffect.Phrase
import StackEffect.Proofs.Sequencing

/-!
Reading a text step by step: for each reader that goes on in the text, one equation that says what its
next step is.
-/
namespace StackEffect

/-! ### Lists up to a sign -/

theorem forall_ne_of_not_mem {α : Type} [DecidableEq α] {stop : α} {front : List α}
    (h : stop ∉ front) : ∀ x ∈ front, decide (x ≠ stop) = true :=
  fun x hx => decide_eq_true fun heq : x = stop => h (heq ▸ hx)

theorem takeWhile_ne_append {α : Type} [DecidableEq α] {stop : α} {front : List α}
    (h : stop ∉ front) (rest : List α) : (front ++ stop :: rest).takeWhile (· ≠ stop) = front := by
  rw [List.takeWhile_append_of_pos (forall_ne_of_not_mem h),
    List.takeWhile_cons_of_neg (by simp), List.append_nil]

theorem dropWhile_ne_append {α : Type} [DecidableEq α] {stop : α} {front : List α}
    (h : stop ∉ front) (rest : List α) : (front ++ stop :: rest).dropWhile (· ≠ stop) = stop :: rest := by
  rw [List.dropWhile_append_of_pos (forall_ne_of_not_mem h), List.dropWhile_cons_of_neg (by simp)]

theorem Token.isWord_of_ne {t : Token} {text other : String} (h : t.isWord text = true)
    (hne : text ≠ other) : t.isWord other = false := by
  simp only [isWord, Bool.and_eq_true, decide_eq_true_eq] at h
  simp [isWord, h.2, hne]

namespace Cursor

theorem pastWord?_eq (close : String) (c : Cursor) : c.pastWord? close =
    match c.rawWord with
    | none => none
    | some (t, after) => if t.text = close then some after else after.pastWord? close := by
  rw [pastWord?]
  split
  · rename_i h
    rw [h]
  · rename_i t after h
    rw [h]

theorem next_eq (c : Cursor) : c.next =
    if (c.skipWhile isBlank).rest.head? = some '"' then (c.skipWhile isBlank).readString.map some
    else
      match (c.skipWhile isBlank).rawWord with
      | none => .ok none
      | some (t, after) =>
        match afterComment? t.text after with
        | some behind => behind.next
        | none => .ok (some (t, after.count)) := by
  rw [next]
  split_ifs with hq
  · rfl
  · split
    · rename_i h
      rw [h]
    · rename_i t after h
      rw [h]
      dsimp only
      split
      · rename_i behind hc
        rw [hc]
      · rename_i hc
        rw [hc]

theorem next_of_nil {c : Cursor} (h : c.rest = []) : c.next = .ok none := by
  rw [next_eq]
  simp [skipWhile, advance, rawWord, h]

theorem skipWhile_skipWhile (p : Char → Bool) (c : Cursor) :
    (c.skipWhile p).skipWhile p = c.skipWhile p := by
  have hdrop := List.dropWhile_idempotent p c.rest
  have htake : (c.rest.dropWhile p).takeWhile p = [] := by
    have hall := List.takeWhile_append_dropWhile (p := p) (l := c.rest.dropWhile p)
    rw [hdrop] at hall
    exact List.self_eq_append_left.mp hall.symm
  simp only [skipWhile, advance, htake, hdrop, Place.afterAll_nil]

theorem rawWord_skipBlank (c : Cursor) : (c.skipWhile isBlank).rawWord = c.rawWord := by
  unfold rawWord
  rw [skipWhile_skipWhile]

theorem bodyTokens_eq (name : String) (c : Cursor) : c.bodyTokens name =
    match c.next with
    | .error e => ([], .error e)
    | .ok none => ([], .error (.unterminatedDefinition name))
    | .ok (some (t, after)) =>
      if t.isWord ";" then ([], .ok after)
      else if t.isWord ":" || t.isWord "extern" then
        ([], .error (.unsupported (.opensInside t.text name)))
      else (t :: (after.bodyTokens name).1, (after.bodyTokens name).2) := by
  rw [bodyTokens]
  split
  all_goals
    rename_i h
    rw [h]

theorem typeLetters_eq (separated : Bool) (c : Cursor) : c.typeLetters separated =
    match c.nextWord with
    | none => .error (declarationFault .unterminated)
    | some (t, after) =>
      if t.text = ")" then
        if separated then .ok ([], [], after) else .error (declarationFault .missingSeparator)
      else if t.text = "--" then
        if separated then .error (declarationFault .repeatedSeparator) else after.typeLetters true
      else
        (after.typeLetters separated).map fun (inputs, outputs, rest) =>
          if separated then (inputs, t.text :: outputs, rest)
          else (t.text :: inputs, outputs, rest) := by
  rw [typeLetters]
  split
  all_goals
    rename_i h
    rw [h]

theorem isIncomplete_eq (inDefinition : Bool) (c : Cursor) : c.isIncomplete inDefinition =
    match c.next with
    | .error _ => false
    | .ok none => inDefinition
    | .ok (some (t, after)) =>
      if t.isWord ":" then after.isIncomplete true
      else if t.isWord ";" then after.isIncomplete false
      else if t.isWord "extern" && !inDefinition then
        match after.pastWord? ")" with
        | none => true
        | some behind => behind.isIncomplete inDefinition
      else after.isIncomplete inDefinition := by
  rw [isIncomplete]
  split
  · rename_i h
    rw [h]
  · rename_i h
    rw [h]
  · rename_i t after h
    rw [h]
    dsimp only
    split_ifs
    · rfl
    · rfl
    · split
      · rename_i hp
        rw [hp]
      · rename_i behind hp
        rw [hp]
    · rfl

end Cursor
end StackEffect
