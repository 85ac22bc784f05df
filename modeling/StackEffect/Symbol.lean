import StackEffect.Hex

/-! Names of words as global names of LLVM IR, which need no quotes then. -/
namespace StackEffect

/-- Characters that stand in a global name as they are. -/
def isSymbolChar (c : Char) : Bool := c.isAlphanum || c = '_' || c = '.' || c = '$'

def spelledPunctuation : List (Char × String) :=
  [('?', "_Q_"), ('>', "_GT_"), ('<', "_LT_"), ('!', "_BANG_"), ('*', "_STAR_"), ('/', "_SLASH_"),
   ('+', "_PLUS_"), ('=', "_EQ_"), ('@', "_AT_"), ('-', "_")]

/-- A character without a spelling of its own is given by its code point. -/
def mangledChar (c : Char) : List Char :=
  if isSymbolChar c then [c]
  else match spelledPunctuation.lookup c with
    | some spelling => spelling.toList
    | none => ['_', 'x'] ++ hexUpper 2 c.toNat ++ ['_']

def mangled (name : String) : String := String.ofList (name.toList.flatMap mangledChar)

/-- The first of `base`, `base.1`, `base.2`, … that is not taken. One more candidate than there are
taken names is enough. -/
def unusedSymbol (taken : List String) (base : String) : String :=
  let suffixed := (List.range taken.length).map fun n => s!"{base}.{n + 1}"
  ((base :: suffixed).find? fun symbol => !taken.contains symbol).getD base

end StackEffect
