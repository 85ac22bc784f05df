import StackEffect.Action
import StackEffect.Signature

/-! What a generator of code offers to the reader of bodies. -/
namespace StackEffect

/-- A body is generated between `beginBody` and `finishBody`, by one call for each node that is no
shuffle. The reader never looks into an operand or a function; it only hands them on. A word from
outside is declared and gets no body. -/
structure Target where
  State : Type
  /-- A value that generated code has at hand. -/
  Operand : Type
  Function : Type
  declare : (name symbol : String) → Signature → Action State Function
  beginBody : Function → Action State Unit
  argument : (index : Nat) → ValueType → Action State Operand
  literal : Value → Action State Operand
  /-- Operands go from the bottom of the stack to its top. -/
  primitive : Primitive → List Operand → Action State (List Operand)
  /-- Operands go from the top of the stack down. -/
  call : Function → List Operand → Action State (List Operand)
  finishBody : Function → List Operand → Action State Unit
  /-- Runs a function; arguments go from the top of the stack down, results up to its top. -/
  execute : Function → List Value → Action State (List Value) :=
    fun _ _ => throw (.unsupported .immediateExecution)
  /-- What executed code has printed since the last time. -/
  takeOutput : State → String × State := fun s => ("", s)

/-- The functions of compiled and external words, by the place of the word. -/
abbrev FunctionTable (T : Target) := Array (Option T.Function)

end StackEffect
