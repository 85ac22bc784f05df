import StackEffect.ValueType

/-! The built-in operations on stack values. Operands are listed from the bottom of the stack to
its top. -/
namespace StackEffect

inductive BinaryOp
  | add
  | sub
  | mul
  | div
  | mod
deriving DecidableEq, Inhabited

def BinaryOp.symbol : BinaryOp → String
  | add => "+"
  | sub => "-"
  | mul => "*"
  | div => "/"
  | mod => "mod"

def BinaryOp.floatSymbol (op : BinaryOp) : String := op.symbol ++ "."

inductive Cast
  | intToString
  | intToFloat
  | floatToInt
deriving DecidableEq, Inhabited

namespace Cast

def name : Cast → String
  | intToString => "i>s"
  | intToFloat => "i>f"
  | floatToInt => "f>i"

def source : Cast → ValueType
  | intToString | intToFloat => .int32
  | floatToInt => .float

def target : Cast → ValueType
  | intToString => .string
  | intToFloat => .float
  | floatToInt => .int32

end Cast

/-- Words that only copy, move or drop values. -/
inductive Shuffle
  | dup
  | swap
  | copyOver
  | rot
  | drop
deriving DecidableEq, Inhabited

namespace Shuffle

def name : Shuffle → String
  | dup => "dup"
  | swap => "swap"
  | copyOver => "over"
  | rot => "rot"
  | drop => "drop"

def arity : Shuffle → Nat
  | dup | drop => 1
  | swap | copyOver => 2
  | rot => 3

def sources : Shuffle → List Nat
  | dup => [0, 0]
  | swap => [1, 0]
  | copyOver => [0, 1, 0]
  | rot => [1, 2, 0]
  | drop => []

theorem lt_arity_of_mem_sources {s : Shuffle} {i : Nat} (h : i ∈ s.sources) : i < s.arity := by
  cases s <;> simp [sources, arity] at * <;> omega

end Shuffle

/-- The operations that become nodes of a body. The type of a binary operation is that of both
operands and of the result. -/
inductive Primitive
  | shuffle (s : Shuffle)
  | binary (op : BinaryOp) (type : ValueType)
  | cast (c : Cast)
deriving DecidableEq, Inhabited

namespace Primitive

def name : Primitive → String
  | shuffle s => s.name
  | binary op type => if type = .float then op.floatSymbol else op.symbol
  | cast c => c.name

def inputArity : Primitive → Nat
  | shuffle s => s.arity
  | binary .. => 2
  | cast _ => 1

def outputArity : Primitive → Nat
  | shuffle s => s.sources.length
  | binary .. | cast _ => 1

def operandType : Primitive → ValueType
  | shuffle _ => .any
  | binary _ type => type
  | cast c => c.source

def sources? : Primitive → Option (List Nat)
  | shuffle s => some s.sources
  | binary .. | cast _ => none

/-- The type of the result, where it does not hang on the operands. -/
def resultType? : Primitive → Option ValueType
  | shuffle _ => none
  | binary _ type => some type
  | cast c => some c.target

def outputType? (p : Primitive) (index : Nat) : Option ValueType :=
  if index = 0 then p.resultType? else none

end Primitive

/-- Words that act on the session and not on the body being compiled. -/
inductive Directive
  | print
  | printStack
  | markInline
  | see
  | words
deriving DecidableEq, Inhabited

inductive Builtin
  | primitive (p : Primitive)
  | directive (d : Directive)
deriving DecidableEq, Inhabited

def binaryWords : List (String × Builtin) :=
  let ops := [BinaryOp.add, .sub, .mul, .div, .mod]
  [ValueType.int32, .float].flatMap fun type => ops.map fun op =>
    let p := Primitive.binary op type
    (p.name, .primitive p)

def builtinWords : List (String × Builtin) :=
  [Shuffle.dup, .swap, .copyOver, .rot, .drop].map (fun s => (s.name, .primitive (.shuffle s)))
  ++ binaryWords
  ++ [Cast.intToString, .intToFloat, .floatToInt].map (fun c => (c.name, .primitive (.cast c)))
  ++ [(".", .directive .print), (".s", .directive .printStack), ("inline", .directive .markInline),
    ("see", .directive .see), ("words", .directive .words)]

end StackEffect
