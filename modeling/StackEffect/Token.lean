import StackEffect.Value

/-! Tokens, and the words that stand for a constant. -/
namespace StackEffect

/-- A place in a text; lines and columns count from one. -/
structure Place where
  line : Nat := 1
  column : Nat := 1
deriving DecidableEq, Inhabited

namespace Place

def after (p : Place) (c : Char) : Place :=
  if c = '\n' then ⟨p.line + 1, 1⟩ else ⟨p.line, p.column + 1⟩

def afterAll (p : Place) (cs : List Char) : Place := cs.foldl after p

@[simp] theorem afterAll_nil (p : Place) : p.afterAll [] = p := rfl

theorem afterAll_append (p : Place) (cs ds : List Char) :
    p.afterAll (cs ++ ds) = (p.afterAll cs).afterAll ds := by
  simp [afterAll]

theorem line_afterAll (p : Place) (cs : List Char) :
    (p.afterAll cs).line = p.line + cs.count '\n' := by
  induction cs generalizing p with
  | nil => simp
  | cons c cs ih =>
    simp only [afterAll, List.foldl_cons] at ih ⊢
    rw [ih, after]
    split <;> rename_i h <;> simp [h]
    omega

end Place

/-- A token that stands for a constant carries it; any other is a word. -/
structure Token where
  text : String
  literal : Option Value
  place : Place
deriving DecidableEq, Inhabited

namespace Token

def isLiteral (t : Token) : Bool := t.literal.isSome

/-- Whether the token is the word `text` and no string or number that looks like it. -/
def isWord (t : Token) (text : String) : Bool := t.literal.isNone && t.text = text

end Token

/-- Hexadecimal digits after a sign or none. -/
def hexInteger? (text : List Char) : Option Int :=
  let (negative, digits) := Binary32.splitSign text
  (ofHex? digits).map fun n => if negative then -(n : Int) else n

-- These numbers have no bounds. One that leaves 64 bits is refused below with all others that leave
-- 32 bits, and so is `-0x-8000000000000000`, the only word whose negation leaves 64 bits: neither the
-- negation nor what it wraps around to fits into 32 bits.

/-- Decimal digits, or hexadecimal ones behind `0x`. -/
def unsignedInteger? : List Char → Option Int
  | '0' :: 'x' :: digits => hexInteger? digits
  | '0' :: 'X' :: digits => hexInteger? digits
  | digits =>
    if digits ≠ [] ∧ digits.all Char.isDigit then some (Binary32.digitsValue digits) else none

def integer? (text : List Char) : Option Int32 :=
  let number := match text with
    | '-' :: rest => (unsignedInteger? rest).map (- ·)
    | _ => unsignedInteger? text
  number.bind fun n =>
    if Int32.minValue.toInt ≤ n ∧ n ≤ Int32.maxValue.toInt then some (Int32.ofInt n) else none

/-- A float has a digit, and a point or an exponent, so that words such as `+.` stay words. -/
def float? (text : List Char) : Option Float32 :=
  let unsigned := match text with
    | '-' :: rest => rest
    | _ => text
  if unsigned.any Char.isDigit && unsigned.any fun c => c = '.' || c = 'e' || c = 'E' then
    Binary32.read? text
  else none

def number? (text : List Char) : Option Value :=
  ((integer? text).map .int).or ((float? text).map .float)

end StackEffect
