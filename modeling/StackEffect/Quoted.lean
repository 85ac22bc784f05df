import StackEffect.Hex
import StackEffect.Unprintable

/-! Quoted texts, in which every character can be told from its looks. -/
namespace StackEffect

/-- A quote, a backslash and the usual controls have an escape of one letter; what cannot be
printed is given by its code point. -/
def quotedChar (c : Char) : List Char :=
  if c = '"' then ['\\', '"']
  else if c = '\\' then ['\\', '\\']
  else if c = '\t' then ['\\', 't']
  else if c = '\n' then ['\\', 'n']
  else if c = '\r' then ['\\', 'r']
  else if c = '\x00' then ['\\', '0']
  else if isUnprintable c then ['\\', 'u', '\x7b'] ++ hexLower c.toNat ++ ['\x7d']
  else [c]

def quoted (text : String) : String :=
  String.ofList ('"' :: text.toList.flatMap quotedChar ++ ['"'])

end StackEffect
