import StackEffect.CharRange

/-! Blank characters, which separate words, and the cut of a text into its words. -/
namespace StackEffect

/-- The characters with the Unicode property `White_Space`. -/
def blankRanges : List CharRange :=
  [(0x9, 0xd), (0x20, 0x20), (0x85, 0x85), (0xa0, 0xa0), (0x1680, 0x1680), (0x2000, 0x200a),
   (0x2028, 0x2029), (0x202f, 0x202f), (0x205f, 0x205f), (0x3000, 0x3000)]

def isBlank (c : Char) : Bool := inRanges blankRanges c

def isInk (c : Char) : Bool := !isBlank c

theorem isBlank_of_isWhitespace {c : Char} (h : c.isWhitespace = true) : isBlank c = true := by
  simp only [Char.isWhitespace, Bool.or_eq_true, decide_eq_true_eq] at h
  rcases h with ((rfl | rfl) | rfl) | rfl <;> decide

theorem length_dropWhile_le {α : Type} (p : α → Bool) (cs : List α) :
    (cs.dropWhile p).length ≤ cs.length := by
  have h := congrArg List.length (List.takeWhile_append_dropWhile (p := p) (l := cs))
  rw [List.length_append] at h
  omega

theorem length_after_word_lt {cs : List Char} {c : Char} {rest : List Char}
    (h : cs.dropWhile isBlank = c :: rest) : (rest.dropWhile isInk).length < cs.length := by
  have h₁ := length_dropWhile_le isBlank cs
  have h₂ := length_dropWhile_le isInk rest
  rw [h, List.length_cons] at h₁
  omega

def blankSeparated (cs : List Char) : List (List Char) :=
  match _h : cs.dropWhile isBlank with
  | [] => []
  | c :: rest => (c :: rest.takeWhile isInk) :: blankSeparated (rest.dropWhile isInk)
termination_by cs.length
decreasing_by exact length_after_word_lt ‹_›

def words (text : String) : List String := (blankSeparated text.toList).map String.ofList

def isAllBlank (text : String) : Bool := text.toList.all isBlank

end StackEffect
