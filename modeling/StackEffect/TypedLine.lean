import StackEffect.Grapheme

/-! Lines as they are typed: a backspace takes back the grapheme before it. -/
namespace StackEffect

def byteCount : List Char → Nat
  | [] => 0
  | c :: rest => c.utf8Size + byteCount rest

@[simp] theorem byteCount_append (cs ds : List Char) :
    byteCount (cs ++ ds) = byteCount cs + byteCount ds := by
  induction cs with
  | nil => simp [byteCount]
  | cons c rest ih => simp [byteCount, ih, Nat.add_assoc]

@[simp] theorem byteCount_reverse (cs : List Char) : byteCount cs.reverse = byteCount cs := by
  induction cs with
  | nil => rfl
  | cons c rest ih => simp [byteCount, ih, Nat.add_comm]

/-- Drops characters until so many bytes are gone. -/
def dropBytes (count : Nat) : List Char → List Char
  | [] => []
  | c :: rest => if count = 0 then c :: rest else dropBytes (count - c.utf8Size) rest

@[simp] theorem dropBytes_zero (cs : List Char) : dropBytes 0 cs = cs := by
  cases cs <;> simp [dropBytes]

@[simp] theorem dropBytes_byteCount (cs rest : List Char) :
    dropBytes (byteCount cs) (cs ++ rest) = rest := by
  induction cs with
  | nil => simp [byteCount]
  | cons c cs ih =>
    have h : c.utf8Size + byteCount cs ≠ 0 := by
      have := c.utf8Size_pos
      omega
    rw [byteCount, List.cons_append, dropBytes, if_neg h, Nat.add_sub_cancel_left, ih]

/-- A line up to a key. A grapheme's size is kept in one byte, so of one that is longer only the
remainder can be taken back. -/
structure TypedLine where
  /-- Last character first. -/
  held : List Char := []
  /-- How many bytes each further backspace takes back. -/
  sizes : List UInt8 := []
deriving DecidableEq, Inhabited

namespace TypedLine

def type (line : TypedLine) (grapheme : List Char) : TypedLine :=
  ⟨grapheme.reverse ++ line.held, UInt8.ofNat (byteCount grapheme) :: line.sizes⟩

/-- There may be nothing left to take back. -/
def takeBack (line : TypedLine) : TypedLine :=
  match line.sizes with
  | [] => line
  | size :: sizes => ⟨dropBytes size.toNat line.held, sizes⟩

/-- What is typed and taken back leaves no trace. -/
theorem takeBack_type (line : TypedLine) {grapheme : List Char}
    (h : byteCount grapheme < 256) : (line.type grapheme).takeBack = line := by
  have hb := dropBytes_byteCount grapheme.reverse line.held
  rw [byteCount_reverse] at hb
  simp only [type, takeBack, UInt8.toNat_ofNat', Nat.mod_eq_of_lt h, hb]

def press (line : TypedLine) (grapheme : List Char) : TypedLine :=
  if grapheme = ['\x08'] then line.takeBack else line.type grapheme

def textOf (keys : String) : String :=
  String.ofList ((graphemes keys.toList).foldl press {}).held.reverse

end TypedLine
end StackEffect
