/-!
Readers. A reader answers what a text starts with, together with the text behind it, or refuses.
`many` repeats a reader; it ends because it takes only what makes the text shorter
(`length_repeated_le`).
-/
namespace StackEffect

abbrev Reader := StateT (List Char) Option

namespace Reader
variable {α : Type}

def one (p : Char → Bool) : Reader Char := fun
  | c :: rest => if p c then some (c, rest) else none
  | [] => none

def char (c : Char) : Reader Unit := discard (one (· = c))

def chars (cs : List Char) : Reader Unit := cs.forM char

def allWith (p : Char → Bool) : Reader (List Char) := fun text =>
  some (text.takeWhile p, text.dropWhile p)

def atEnd : Reader Unit := fun text => if text.isEmpty then some ((), []) else none

def repeated (r : Reader α) (text : List Char) : List α × List Char :=
  match r text with
  | none => ([], text)
  | some (a, rest) =>
    if _h : rest.length < text.length then
      let (more, last) := repeated r rest
      (a :: more, last)
    else ([], text)
termination_by text.length

theorem length_repeated_le (r : Reader α) (text : List Char) :
    (repeated r text).2.length ≤ text.length := by
  fun_induction repeated r text with
  | case1 => exact Nat.le_refl _
  | case2 text a rest hr h more last hm ih =>
    simp only [hm] at ih
    exact Nat.le_trans ih (Nat.le_of_lt ‹_›)
  | case3 => exact Nat.le_refl _

def many (r : Reader α) : Reader (List α) := fun text => some (repeated r text)

def separated (item : Reader α) (separator : Reader Unit) : Reader (List α) := do
  let first ← item
  let more ← many (separator *> item)
  return first :: more

def taken (r : Reader α) : Reader (List Char) := fun text =>
  (r text).map fun (_, rest) => (text.take (text.length - rest.length), rest)

end Reader
end StackEffect
