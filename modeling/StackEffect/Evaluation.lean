import StackEffect.CompileError

/-! Built-in operations on constants. Integer arithmetic wraps around; division truncates. -/
namespace StackEffect

namespace BinaryOp

def onInts (op : BinaryOp) (a b : Int32) : Except CompileError Int32 :=
  match op with
  | add => .ok (a + b)
  | sub => .ok (a - b)
  | mul => .ok (a * b)
  | div => if b = 0 then .error (.runtime (.divisionByZero div)) else .ok (a / b)
  | mod => if b = 0 then .error (.runtime (.divisionByZero mod)) else .ok (a % b)

def onFloats (op : BinaryOp) (a b : Float32) : Float32 :=
  match op with
  | add => a + b
  | sub => a - b
  | mul => a * b
  | div => a / b
  | mod => Binary32.remainder a b

/-- Two values of one number type; `left` lay deeper in the stack. -/
def apply (op : BinaryOp) (left right : Value) : Except CompileError Value :=
  match left, right with
  | .int a, .int b => (op.onInts a b).map .int
  | .float a, .float b => .ok (.float (op.onFloats a b))
  | _, _ => .error (.runtime (.cannotCombine op left.type right.type))

end BinaryOp

/-- An integer becomes the nearest float; a float loses its fraction and is kept within the range
of integers, and what is no number becomes zero. -/
def Cast.apply (cast : Cast) (value : Value) : Except CompileError Value :=
  match cast, value with
  | intToString, .int n => .ok (.str (Value.intText n))
  | intToFloat, .int n => .ok (.float (Float32.ofModel (.ofInt32 n)))
  | floatToInt, .float x => .ok (.int x.toModel.toInt32)
  | _, _ => .error (.runtime (.cannotConvert cast value.type))

def Shuffle.apply {α : Type} (s : Shuffle) (operands : List α) : List α :=
  s.sources.filterMap (operands[·]?)

namespace Primitive

def inputType (p : Primitive) (index : Nat) : Except CompileError ValueType :=
  if index < p.inputArity then .ok p.operandType
  else .error (.indexOutOfRange index p.inputArity)

def eval (p : Primitive) (operands : List Value) : Except CompileError (List Value) :=
  match p, operands with
  | binary op _, [left, right] => (op.apply left right).map ([·])
  | cast c, [value] => (c.apply value).map ([·])
  | shuffle s, _ =>
    if operands.length = s.arity then .ok (s.apply operands)
    else .error (.arity s.name (.operandCount s.arity operands.length))
  | p, _ => .error (.arity p.name (.operandCount p.inputArity operands.length))

end Primitive

end StackEffect
