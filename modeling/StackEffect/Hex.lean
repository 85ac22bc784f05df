/-! Hexadecimal numerals. -/
namespace StackEffect

/-- Digits above nine are small letters, and there is no leading zero. -/
def hexLower (n : Nat) : List Char := Nat.toDigits 16 n

/-- Digits above nine are capital letters; zeros fill the numeral up to `width`. -/
def hexUpper (width n : Nat) : List Char :=
  ((Nat.toDigits 16 n).map Char.toUpper).leftpad width '0'

def hexDigit? (c : Char) : Option Nat :=
  if c.isDigit then some (c.toNat - 48)
  else if 'a' ≤ c ∧ c ≤ 'f' then some (c.toNat - 87)
  else if 'A' ≤ c ∧ c ≤ 'F' then some (c.toNat - 55)
  else none

def ofHex? : List Char → Option Nat
  | [] => none
  | cs => cs.foldlM (fun n c => (hexDigit? c).map (16 * n + ·)) 0

end StackEffect
