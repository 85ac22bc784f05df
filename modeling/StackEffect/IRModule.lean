import StackEffect.CompileError
import StackEffect.Signature
import StackEffect.Symbol

/-!
Modules of LLVM IR. An integer is an `i32`, a float a `float` and a string a `ptr` to bytes that
end with a zero; a function with several results returns a structure of them. Temporaries are
assigned once each. The types `null` and `any` have no counterpart.
-/
namespace StackEffect

inductive IRType
  | i32
  | float
  | ptr
deriving DecidableEq, Inhabited

def IRType.text : IRType → String
  | i32 => "i32"
  | float => "float"
  | ptr => "ptr"

def IRType.ofValueType : ValueType → Except CompileError IRType
  | .int32 => .ok i32
  | .float => .ok float
  | .string => .ok ptr
  | type => .error (.unsupported (.loweringType type))

def resultText : List IRType → String
  | [] => "void"
  | [type] => type.text
  | types => "\x7b " ++ ", ".intercalate (types.map IRType.text) ++ " \x7d"

/-- `verbatim` is an operand that is already written out. -/
inductive IROperand
  | temporary (n : Nat)
  | parameter (n : Nat)
  | int (n : Int32)
  | float (x : Float32)
  | string (n : Nat)
  | verbatim (text : String)
deriving DecidableEq

def temporaryText (n : Nat) : String := s!"%t{n}"

def parameterText (n : Nat) : String := s!"%arg{n}"

def stringText (n : Nat) : String := s!"@.str.{n}"

/-- A float is spelled by the bits of the equal binary64 number. -/
def IROperand.text : IROperand → String
  | temporary n => temporaryText n
  | parameter n => parameterText n
  | int n => Value.intText n
  | float x => "0x" ++ String.ofList (hexUpper 16 (Binary32.doubleBits x))
  | string n => stringText n
  | verbatim text => text

structure IRFunction where
  symbol : String
  signature : Signature
  parameters : List IRType
  results : List IRType
deriving DecidableEq

/-- `insert` starts from an undefined structure where it names no temporary. -/
inductive IRInstruction
  | integerOp (target : Nat) (op : BinaryOp) (left right : IROperand)
  | floatOp (target : Nat) (op : BinaryOp) (left right : IROperand)
  | cast (target : Nat) (c : Cast) (operand : IROperand)
  | call (target : Option Nat) (results : List IRType) (symbol : String)
      (arguments : List (IRType × IROperand))
  | extract (target : Nat) (results : List IRType) (source index : Nat)
  | insert (target : Nat) (results : List IRType) (source : Option Nat) (type : IRType)
      (operand : IROperand) (index : Nat)
deriving DecidableEq

/-- What a body returns; a structure is a temporary, or undefined. -/
inductive IRReturn
  | nothing
  | value (type : IRType) (operand : IROperand)
  | aggregate (results : List IRType) (source : Option Nat)
deriving DecidableEq

def intToStringSymbol : String := "llforth_int_to_string"

def integerMnemonic : BinaryOp → String
  | .add => "add"
  | .sub => "sub"
  | .mul => "mul"
  | .div => "sdiv"
  | .mod => "srem"

def floatMnemonic : BinaryOp → String
  | .add => "fadd"
  | .sub => "fsub"
  | .mul => "fmul"
  | .div => "fdiv"
  | .mod => "frem"

def sourceText : Option Nat → String
  | some n => temporaryText n
  | none => "undef"

def typedText (type : IRType) (operand : IROperand) : String := s!"{type.text} {operand.text}"

def commaSeparated (items : List String) : String := ", ".intercalate items

def castText (c : Cast) (operand : IROperand) : String :=
  match c with
  | .intToFloat => s!"sitofp i32 {operand.text} to float"
  | .floatToInt => s!"fptosi float {operand.text} to i32"
  | .intToString => s!"call ptr @{intToStringSymbol}(i32 {operand.text})"

namespace IRInstruction

def target? : IRInstruction → Option Nat
  | integerOp target .. | floatOp target .. | cast target .. => some target
  | call target .. => target
  | extract target .. | insert target .. => some target

def operationText : IRInstruction → String
  | integerOp _ op left right => s!"{integerMnemonic op} i32 {left.text}, {right.text}"
  | floatOp _ op left right => s!"{floatMnemonic op} float {left.text}, {right.text}"
  | cast _ c operand => castText c operand
  | call _ results symbol arguments =>
    let inputs := commaSeparated (arguments.map fun (type, operand) => typedText type operand)
    s!"call {resultText results} @{symbol}({inputs})"
  | extract _ results source index =>
    s!"extractvalue {resultText results} {temporaryText source}, {index}"
  | insert _ results source type operand index =>
    s!"insertvalue {resultText results} {sourceText source}, {typedText type operand}, {index}"

def text (i : IRInstruction) : String :=
  match i.target? with
  | some target => s!"  {temporaryText target} = {i.operationText}"
  | none => "  " ++ i.operationText

end IRInstruction

def IRReturn.text : IRReturn → String
  | nothing => "  ret void"
  | value type operand => "  ret " ++ typedText type operand
  | aggregate results source => s!"  ret {resultText results} {sourceText source}"

def IRFunction.headLines (f : IRFunction) : List String :=
  let parameters := f.parameters.zipIdx.map fun (type, n) => s!"{type.text} {parameterText n}"
  [s!"define {resultText f.results} @{f.symbol}({commaSeparated parameters}) \x7b", "entry:"]

def IRFunction.declareLine (f : IRFunction) : String :=
  s!"declare {resultText f.results} @{f.symbol}({commaSeparated (f.parameters.map IRType.text)})"

/-- A body that has been finished; it has no head if it was never begun. -/
structure IRBody where
  head : Option IRFunction
  code : Array IRInstruction
  last : IRReturn
deriving DecidableEq

def IRBody.lines (b : IRBody) : List String :=
  (b.head.map IRFunction.headLines).getD [] ++ b.code.toList.map IRInstruction.text
    ++ [b.last.text, "\x7d", ""]

/-- Printable ASCII stands for itself, but for quotes and backslashes. -/
def isPlainByte (b : UInt8) : Bool := 0x20 ≤ b && b ≤ 0x7e && b ≠ 0x22 && b ≠ 0x5c

def escapedByte (b : UInt8) : List Char :=
  if isPlainByte b then [Char.ofNat b.toNat] else '\\' :: hexUpper 2 b.toNat

def escapedBytes (s : String) : List Char := s.toUTF8.toList.flatMap escapedByte

def stringLine (n : Nat) (s : String) : String :=
  s!"{stringText n} = private unnamed_addr constant [{s.utf8ByteSize + 1} x i8] c\""
    ++ String.ofList (escapedBytes s) ++ "\\00\""

/-- `declared` tells of each function whether it has a body; `head`, `code` and `temporaries`
belong to the body that is being built. -/
structure IRModule where
  name : String
  triple : String
  declared : Array (IRFunction × Bool) := #[]
  strings : Array String := #[]
  bodies : Array IRBody := #[]
  head : Option IRFunction := none
  code : Array IRInstruction := #[]
  temporaries : Nat := 0
  usesIntToString : Bool := false
deriving DecidableEq

namespace IRModule

def headLines (m : IRModule) : List String :=
  [s!"; ModuleID = '{m.name}'", s!"source_filename = \"{m.name}\"",
    s!"target triple = \"{m.triple}\"", ""]

def stringLines (m : IRModule) : List String :=
  if m.strings.isEmpty then []
  else m.strings.toList.zipIdx.map (fun (s, n) => stringLine n s) ++ [""]

def declareLines (m : IRModule) : List String :=
  let external := m.declared.toList.filterMap fun (f, hasBody) =>
    if hasBody then none else some f.declareLine
  let lines := external
    ++ if m.usesIntToString then [s!"declare ptr @{intToStringSymbol}(i32)"] else []
  if lines.isEmpty then [] else "; External declarations" :: lines

def lines (m : IRModule) : List String :=
  m.headLines ++ m.stringLines ++ m.bodies.toList.flatMap IRBody.lines ++ m.declareLines

def text (m : IRModule) : String := String.join (m.lines.map (· ++ "\n"))

end IRModule
end StackEffect
