/-!
Decimal text and the remainder of binary32 numbers. A numeral is read as the nearest number, ties
going to the even one; a number is written with the fewest digits that read back as it.
-/
namespace StackEffect.Binary32
open Float.Model (Format UnpackedFloat)

/-- The number nearest to `mantissa * 10 ^ exponent`. -/
def nearest (mantissa : Nat) (exponent : Int) : Float32 :=
  Float32.ofScientific mantissa (exponent < 0) exponent.natAbs

def digitsValue (digits : List Char) : Nat := Nat.ofDigitChars 10 digits 0

def splitSign : List Char → Bool × List Char
  | '-' :: rest => (true, rest)
  | '+' :: rest => (false, rest)
  | rest => (false, rest)

/-- The exponent part of a numeral: nothing, or `e`, a sign if there is one, and digits. -/
def readExponent : List Char → Option Int
  | [] => some 0
  | c :: rest =>
    let (negative, digits) := splitSign rest
    if (c = 'e' ∨ c = 'E') ∧ digits ≠ [] ∧ digits.all Char.isDigit then
      some (if negative then -(digitsValue digits : Int) else digitsValue digits)
    else none

def readUnsigned (text : List Char) : Option Float32 :=
  let whole := text.takeWhile Char.isDigit
  let rest := text.dropWhile Char.isDigit
  let (fraction, rest) := match rest with
    | '.' :: after => (after.takeWhile Char.isDigit, after.dropWhile Char.isDigit)
    | _ => ([], rest)
  if whole = [] ∧ fraction = [] then none
  else (readExponent rest).map fun exponent =>
    nearest (digitsValue (whole ++ fraction)) (exponent - fraction.length)

/-- A decimal numeral with a sign or without one. -/
def read? (text : List Char) : Option Float32 :=
  let (negative, rest) := splitSign text
  (readUnsigned rest).map fun x => if negative then -x else x

/-- The real numbers that round to one number, over a common denominator. -/
structure Neighbourhood where
  low : Nat
  value : Nat
  high : Nat
  denominator : Nat
  closed : Bool

/-- The reals that round to `mantissa * 2 ^ exponent`. The gap below a power of two is half the
gap above it; the ends belong to an even mantissa. -/
def neighbourhood (mantissa : Nat) (exponent : Int) : Neighbourhood :=
  let below := if mantissa = Nat.pow 2 23 ∧ exponent > -149 then 1 else 2
  let scale := Nat.pow 2 (exponent - 2).toNat
  { low := (4 * mantissa - below) * scale
    value := 4 * mantissa * scale
    high := (4 * mantissa + 2) * scale
    denominator := Nat.pow 2 (2 - exponent).toNat
    closed := mantissa % 2 = 0 }

/-- The multiple of `10 ^ place` in the neighbourhood that is nearest to the value, the upper one
of two that are equally near. -/
def Neighbourhood.multiple? (n : Neighbourhood) (place : Int) : Option Nat :=
  let up := Nat.pow 10 (-place).toNat
  let unit := n.denominator * Nat.pow 10 place.toNat
  let inside (k : Nat) : Bool :=
    if n.closed then n.low * up ≤ k * unit && k * unit ≤ n.high * up
    else n.low * up < k * unit && k * unit < n.high * up
  let k := n.value * up / unit
  let rest := n.value * up % unit
  if inside k && (!inside (k + 1) || 2 * rest < unit) then some k
  else if inside (k + 1) then some (k + 1)
  else none

/-- The coarsest of `count` decimal grids, the first with steps of `10 ^ place`, that meets the
neighbourhood: the point on it and its place. -/
def coarsest (n : Neighbourhood) : Nat → Int → Nat × Int
  | 0, place =>
    (n.value * Nat.pow 10 (-place).toNat / (n.denominator * Nat.pow 10 place.toNat), place)
  | count + 1, place =>
    match n.multiple? place with
    | some k => (k, place)
    | none => coarsest n count (place - 1)

/-- Significant digits and the place of the last one. Every number lies below `10 ^ 39`, and no
neighbourhood is so narrow that it needs a place below `10 ^ -45`. -/
def shortest (mantissa : Nat) (exponent : Int) : List Char × Int :=
  let (k, place) := coarsest (neighbourhood mantissa exponent) 85 39
  (Nat.toDigits 10 k, place)

def positional (digits : List Char) (place : Int) : List Char :=
  if 0 ≤ place then digits ++ List.replicate place.toNat '0' ++ ['.', '0']
  else
    let places := (-place).toNat
    let padded := digits.leftpad (places + 1) '0'
    padded.take (padded.length - places) ++ '.' :: padded.drop (padded.length - places)

def scientific (digits : List Char) (place : Int) : List Char :=
  let power := place + (digits.length - 1 : Nat)
  let fraction := if digits.length ≤ 1 then [] else '.' :: digits.drop 1
  digits.take 1 ++ fraction ++ 'e' :: (toString power).toList

/-- Digits are written out from `1e-4` up to, but not including, `1e16`. -/
def unsignedText (mantissa : Nat) (exponent : Int) : List Char :=
  let (digits, place) := shortest mantissa exponent
  let power := place + (digits.length - 1 : Nat)
  if -4 ≤ power ∧ power < 16 then positional digits place else scientific digits place

def signText : UnpackedFloat.Sign → List Char
  | .negative => ['-']
  | .positive => []

/-- The shortest numeral that reads back as the number. -/
def text (x : Float32) : String :=
  String.ofList <| match x.toModel.unpack with
    | .notANumber => ['N', 'a', 'N']
    | .infinity s => signText s ++ ['i', 'n', 'f']
    | .zero s => signText s ++ ['0', '.', '0']
    | .finite s mantissa exponent _ => signText s ++ unsignedText mantissa exponent

def ofUnpacked (u : UnpackedFloat) : Float32 := Float32.ofModel (Float32.Model.pack u)

/-- What is left of `x` after taking away `y` as often as it fits, exactly; it has the sign of
`x`. -/
def remainder (x y : Float32) : Float32 :=
  match x.toModel.unpack, y.toModel.unpack with
  | .notANumber, _ => ofUnpacked .notANumber
  | _, .notANumber => ofUnpacked .notANumber
  | .infinity _, _ => ofUnpacked .notANumber
  | _, .zero _ => ofUnpacked .notANumber
  | .finite s m e _, .finite _ n f _ =>
    let place := min e f
    let rest := (m <<< (e - place).toNat) % (n <<< (f - place).toNat)
    ofUnpacked (if rest = 0 then .zero s else UnpackedFloat.round Format.binary32 s rest place)
  | _, _ => x

/-- The bits of the binary64 number that is equal to `x`. -/
def doubleBits (x : Float32) : Nat :=
  BitVec.toNat <| UnpackedFloat.pack Format.binary64 <| match x.toModel.unpack with
    | .finite s m e _ => UnpackedFloat.round Format.binary64 s m e
    | u => u

end StackEffect.Binary32
