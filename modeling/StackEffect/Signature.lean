import StackEffect.Blank
import StackEffect.CompileError

/-! Stack effects: what a word takes and what it leaves. -/
namespace StackEffect

/-- A type list, such as `i i`, in which `word` is to be blamed for an unknown letter. -/
def ValueType.ofCodes (word : String) (codes : List String) : Except CompileError (List ValueType) :=
  codes.mapM fun code => match ofCode? code with
    | some type => .ok type
    | none => .error (.arity word (.unknownType code))

/-- `inputs` starts with the top of the stack before the call; `outputs` ends with the top of the
stack after it. -/
structure Signature where
  inputs : List ValueType
  outputs : List ValueType
deriving DecidableEq, Inhabited

namespace Signature

def inputArity (s : Signature) : Nat := s.inputs.length

def outputArity (s : Signature) : Nat := s.outputs.length

def codes (types : List ValueType) : String := String.join (types.map fun type => " " ++ type.code)

/-- The signature as an external declaration spells it, such as `( i s -- f )`. -/
def text (s : Signature) : String := "(" ++ codes s.inputs ++ " --" ++ codes s.outputs ++ " )"

def ofCodes (word inputs outputs : String) : Except CompileError Signature := do
  return ⟨← ValueType.ofCodes word (words inputs), ← ValueType.ofCodes word (words outputs)⟩

end Signature
end StackEffect
