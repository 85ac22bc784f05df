import StackEffect.Document
import StackEffect.Document.Scalar

/-! Reading a document: values, keys and statements, each statement with the end of its line. -/
namespace StackEffect.Document
open Reader

def comment : Reader Unit := do
  char '#'
  discard (allWith isPlain)

/-- Blanks, line breaks and comments, which may surround the items of a list. -/
def gap : Reader Unit := discard (many (discard (one isSpace) <|> newline <|> comment))

/-- Lists and written-out tables are nested less deep than this, and keys have fewer parts. -/
def nestingLimit : Nat := 80

/-! ### Keys -/

def isKeyChar (c : Char) : Bool := c.isAlphanum || c = '_' || c = '-'

def bareKey : Reader String := do
  let first ← one isKeyChar
  let more ← allWith isKeyChar
  return String.ofList (first :: more)

def keyPart : Reader String := lineString '"' true <|> lineString '\'' false <|> bareKey

def readKey : Reader Key := do
  let parts ← separated (spaces *> keyPart <* spaces) (char '.')
  guard (parts.length < nestingLimit)
  return Key.ofParts parts

/-! ### Values -/

def scalar : Reader Value :=
  (.string <$> anyString) <|> (.moment <$> moment) <|> (.float <$> float) <|>
  (.integer <$> integer) <|> (chars "true".toList *> pure (.boolean true)) <|>
  (chars "false".toList *> pure (.boolean false))

/-- Items between brackets; a comma may follow the last one. -/
def list (item : Reader Value) : Reader Value := do
  char '['
  let items ← optional (separated (gap *> item <* gap) (char ',') <* optional (char ','))
  gap
  char ']'
  return .list (items.getD [])

def assignment (value : Reader Value) : Reader (Key × Value) := do
  let key ← readKey
  char '='
  spaces
  let v ← value
  spaces
  return (key, v)

/-- Assignments between braces, on one line and with no comma after the last one. -/
def inlineTable (value : Reader Value) : Reader Value := do
  char '\x7b'
  let pairs ← optional (separated (assignment value) (char ','))
  spaces
  char '\x7d'
  let some entries := Entries.ofPairs (pairs.getD []) | failure
  return .table .inline entries

def value : Nat → Reader Value
  | 0 => scalar
  | depth + 1 => list (value depth) <|> inlineTable (value depth) <|> scalar

/-! ### Statements -/

def lineEnd : Reader Unit := newline <|> atEnd

def restOfLine : Reader Unit := do
  spaces
  discard (optional comment)
  lineEnd

def header (opening closing : List Char) : Reader Key := do
  chars opening
  let key ← readKey
  chars closing
  return key

def statement : Reader (Option Statement) := do
  spaces
  (newline *> pure none) <|> (comment *> lineEnd *> pure none) <|>
    (some <$> ((.openElement <$> header ['[', '['] [']', ']']) <|>
      (.openTable <$> header ['['] [']']) <|>
      (fun (key, v) => .assign key v) <$> assignment (value (nestingLimit - 1))) <* restOfLine)

/-- All statements of a text, or else the line where the one that cannot be read starts. A byte
order mark in front is no part of the text. -/
def statements (text : String) : Except Nat (List Statement) :=
  let text := match text.toList with
    | '\ufeff' :: rest => rest
    | text => text
  let (found, rest) := repeated statement text
  if rest.all isSpace then .ok (found.filterMap id)
  else .error ((text.take (text.length - rest.length)).count '\n' + 1)

end StackEffect.Document
