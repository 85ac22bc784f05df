import StackEffect.Hex
import StackEffect.Reader

/-! Strings, numbers, dates and times of a document. -/
namespace StackEffect.Document
open Reader

/-- Characters that stand for themselves. Control characters other than the tab do not. -/
def isPlain (c : Char) : Bool := c = '\t' || (' ' ≤ c && c ≠ '\x7f')

def isSpace (c : Char) : Bool := c = ' ' || c = '\t'

def spaces : Reader Unit := discard (allWith isSpace)

def newline : Reader Unit := char '\n' <|> chars ['\r', '\n']

/-! ### Strings -/

def codePoint (count : Nat) : Reader Char := do
  let digits ← (List.replicate count ()).mapM fun _ => one fun c => (hexDigit? c).isSome
  let some n := ofHex? digits | failure
  guard n.isValidChar
  return Char.ofNat n

def escaped : Reader Char := do
  char '\\'
  match ← one fun _ => true with
  | 'b' => return '\x08'
  | 't' => return '\t'
  | 'n' => return '\n'
  | 'f' => return '\x0c'
  | 'r' => return '\r'
  | '"' => return '"'
  | '\\' => return '\\'
  | 'u' => codePoint 4
  | 'U' => codePoint 8
  | _ => failure

def isLiteral (quote : Char) (escapes : Bool) (c : Char) : Bool :=
  isPlain c && c ≠ quote && !(escapes && c = '\\')

/-- A string on one line. Where a backslash is no escape it stands for itself. -/
def lineString (quote : Char) (escapes : Bool) : Reader String := do
  char quote
  let content ← many (one (isLiteral quote escapes) <|> (guard escapes *> escaped))
  char quote
  return String.ofList content

/-- A backslash at the end of a line hides the line break and all blanks after it. -/
def hiddenBreak : Reader Unit := do
  char '\\'
  spaces
  newline
  discard (many (discard (one isSpace) <|> newline))

def fewQuotes (quote : Char) : Reader (List Char) := do
  let quotes ← allWith (· = quote)
  guard (quotes.length = 1 ∨ quotes.length = 2)
  return quotes

/-- Three quotes that end a string, behind at most two more that still belong to it. -/
def lastQuotes (quote : Char) : Reader (List Char) := fun text =>
  let count := (text.takeWhile (· = quote)).length
  let own := min (count - 3) 2
  if count < 3 then none else some (List.replicate own quote, text.drop (own + 3))

/-- A string between three quotes on each side. It may have line breaks, and a first one is not
part of it. -/
def textString (quote : Char) (escapes : Bool) : Reader String := do
  chars [quote, quote, quote]
  discard (optional newline)
  let pieces ← many <|
    (List.singleton <$> one (isLiteral quote escapes)) <|>
    (newline *> pure ['\n']) <|> fewQuotes quote <|>
    (guard escapes *> ((hiddenBreak *> pure []) <|> List.singleton <$> escaped))
  let last ← lastQuotes quote
  return String.ofList (pieces.flatten ++ last)

def anyString : Reader String :=
  textString '"' true <|> lineString '"' true <|>
  textString '\'' false <|> lineString '\'' false

/-! ### Numbers -/

/-- Digits, with single underscores between them. -/
def digits (p : Char → Bool) : Reader (List Char) := do
  let first ← one p
  let more ← many (one p <|> (char '_' *> one p))
  return first :: more

def inBase (base : Nat) (cs : List Char) : Nat :=
  cs.foldl (fun n c => base * n + (hexDigit? c).getD 0) 0

def basedInteger (letter : Char) (base : Nat) : Reader Int := do
  chars ['0', letter]
  let ds ← digits fun c => (hexDigit? c).any (· < base)
  return inBase base ds

def isNegative : Reader Bool :=
  (char '-' *> pure true) <|> (char '+' *> pure false) <|> pure false

/-- Decimal digits, of which only a lone one may be a leading zero. -/
def wholeDigits : Reader (List Char) := (char '0' *> pure ['0']) <|> digits Char.isDigit

def decimalInteger : Reader Int := do
  let negative ← isNegative
  let n := inBase 10 (← wholeDigits)
  return if negative then -(n : Int) else n

def integer : Reader Int := do
  let n ← basedInteger 'x' 16 <|> basedInteger 'o' 8 <|> basedInteger 'b' 2 <|> decimalInteger
  guard (Int64.minValue.toInt ≤ n ∧ n ≤ Int64.maxValue.toInt)
  return n

/-- Half a step above the largest binary64 number. -/
def overflowBound : Nat := Nat.pow 2 1024 - Nat.pow 2 970

def roundsToFinite (mantissa : Nat) (exponent : Int) : Bool :=
  let power := exponent + (Nat.toDigits 10 mantissa).length
  if mantissa = 0 ∨ power < 309 then true
  else if 309 < power then false
  else mantissa * Nat.pow 10 exponent.toNat < overflowBound * Nat.pow 10 (-exponent).toNat

def exponentPart : Reader Int := do
  discard (one fun c => c = 'e' || c = 'E')
  let negative ← isNegative
  let n := inBase 10 (← digits Char.isDigit)
  return if negative then -(n : Int) else n

/-- A number with a fraction or an exponent. Only a negative one may be too large. -/
def decimalFloat : Reader Unit := do
  let negative ← isNegative
  let whole ← wholeDigits
  let fraction ← optional (char '.' *> digits Char.isDigit)
  let exponent ← optional exponentPart
  guard (fraction.isSome ∨ exponent.isSome)
  let places := fraction.getD []
  guard (negative ∨
    roundsToFinite (inBase 10 (whole ++ places)) (exponent.getD 0 - places.length))

def specialFloat : Reader Unit := do
  discard isNegative
  chars "inf".toList <|> chars "nan".toList

def float : Reader String := String.ofList <$> taken (decimalFloat <|> specialFloat)

/-! ### Dates and times -/

def numberWithin (count low high : Nat) : Reader Nat := do
  let ds ← (List.replicate count ()).mapM fun _ => one Char.isDigit
  let n := inBase 10 ds
  guard (low ≤ n ∧ n ≤ high)
  return n

def isLeapYear (year : Nat) : Bool := year % 4 = 0 && (year % 100 ≠ 0 || year % 400 = 0)

def daysIn (year month : Nat) : Nat :=
  if month = 2 then if isLeapYear year then 29 else 28
  else if month = 4 ∨ month = 6 ∨ month = 9 ∨ month = 11 then 30
  else 31

def date : Reader Unit := do
  let year ← numberWithin 4 0 9999
  char '-'
  let month ← numberWithin 2 1 12
  char '-'
  discard (numberWithin 2 1 (daysIn year month))

/-- A minute may have a leap second. -/
def time : Reader Unit := do
  discard (numberWithin 2 0 23)
  char ':'
  discard (numberWithin 2 0 59)
  char ':'
  discard (numberWithin 2 0 60)
  discard (optional (char '.' *> one Char.isDigit *> allWith Char.isDigit))

def offset : Reader Unit :=
  discard (one fun c => c = 'Z' || c = 'z') <|> do
    discard (one fun c => c = '+' || c = '-')
    discard (numberWithin 2 0 23)
    char ':'
    discard (numberWithin 2 0 59)

def moment : Reader String := String.ofList <$> taken (dated <|> time)
where
  dated : Reader Unit := do
    date
    discard (optional do
      discard (one fun c => c = 'T' || c = 't' || c = ' ')
      time
      discard (optional offset))

end StackEffect.Document
