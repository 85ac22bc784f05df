import StackEffect.IRModule
import StackEffect.Target

/-! Generating LLVM IR. -/
namespace StackEffect.IRModule

def declared? (m : IRModule) (symbol : String) : Option (IRFunction × Bool) :=
  m.declared.find? fun (f, _) => f.symbol = symbol

/-- Whether the same external function has been declared before. -/
def isRepeated (m : IRModule) (symbol : String) (signature : Signature) : Bool :=
  match m.declared? symbol with
  | some (f, hasBody) => !hasBody && f.signature = signature
  | none => false

/-- A symbol that is taken gets a number, except where an external function is declared again. -/
def declare (_ symbol : String) (signature : Signature) : Action IRModule IRFunction := do
  let results ← Action.ofExcept (signature.outputs.mapM IRType.ofValueType)
  let parameters ← Action.ofExcept (signature.inputs.mapM IRType.ofValueType)
  let m ← get
  let base := mangled symbol
  if m.isRepeated base signature then return { symbol := base, signature, parameters, results }
  else
    let symbol := unusedSymbol (m.declared.toList.map fun (f, _) => f.symbol) base
    let f : IRFunction := { symbol, signature, parameters, results }
    modify fun m => { m with declared := m.declared.push (f, false) }
    return f

def beginBody (f : IRFunction) : Action IRModule Unit :=
  modify fun m => { m with head := some f, code := #[], temporaries := 0 }

def newTemporary : Action IRModule Nat := fun m =>
  .ok m.temporaries { m with temporaries := m.temporaries + 1 }

def append (i : IRInstruction) : Action IRModule Unit :=
  modify fun m => { m with code := m.code.push i }

def emitArgument (index : Nat) (type : ValueType) : Action IRModule IROperand := do
  discard (Action.ofExcept (IRType.ofValueType type))
  return .parameter index

def stringGlobal (s : String) : Action IRModule Nat := fun m =>
  match m.strings.idxOf? s with
  | some n => .ok n m
  | none => .ok m.strings.size { m with strings := m.strings.push s }

def emitLiteral : Value → Action IRModule IROperand
  | .int n => pure (.int n)
  | .float x => pure (.float x)
  | .str s => .string <$> stringGlobal s

/-- The temporary is used up also where there is no instruction for the operation. -/
def emitPrimitive (p : Primitive) (operands : List IROperand) :
    Action IRModule (List IROperand) := do
  let target ← newTemporary
  match p, operands with
  | .binary op .int32, left :: right :: _ => append (.integerOp target op left right)
  | .binary op .float, left :: right :: _ => append (.floatOp target op left right)
  | .cast .intToString, operand :: _ =>
    modify fun m => { m with usesIntToString := true }
    append (.cast target .intToString operand)
  | .cast c, operand :: _ => append (.cast target c operand)
  | p, _ => throw (.unsupported (.loweringPrimitive p.name))
  return [.temporary target]

/-- Several results come as a structure, which is taken apart at once. -/
def emitCall (f : IRFunction) (arguments : List IROperand) : Action IRModule (List IROperand) := do
  let arguments := f.parameters.zip arguments
  if f.results.isEmpty then
    append (.call none f.results f.symbol arguments)
    return []
  let target ← newTemporary
  append (.call target f.results f.symbol arguments)
  if f.results.length = 1 then return [.temporary target]
  (List.range f.results.length).mapM fun index => do
    let field ← newTemporary
    append (.extract field f.results target index)
    return .temporary field

def emitAggregate (f : IRFunction) (outputs : List IROperand) : Action IRModule (Option Nat) :=
  (outputs.zip f.results).zipIdx.foldlM (fun source ((operand, type), index) => do
    let target ← newTemporary
    append (.insert target f.results source type operand index)
    return some target) none

def emitReturn (f : IRFunction) (outputs : List IROperand) : Action IRModule IRReturn :=
  match outputs, f.results with
  | [], _ => pure .nothing
  | [_], [] => throw (.unsupported (.loweringType .null))
  | [operand], type :: _ => pure (.value type operand)
  | outputs, results => .aggregate results <$> emitAggregate f outputs

def markDefined (m : IRModule) (symbol : String) : IRModule :=
  match m.declared.findIdx? fun (f, _) => f.symbol = symbol with
  | some n => { m with declared := m.declared.modify n fun (f, _) => (f, true) }
  | none => m

def finishBody (f : IRFunction) (outputs : List IROperand) : Action IRModule Unit := do
  let last ← emitReturn f outputs
  modify fun m =>
    { m with
      bodies := m.bodies.push { head := m.head, code := m.code, last }
      head := none
      code := #[] }.markDefined f.symbol

/-- LLVM IR as a target of code generation; nothing is executed. -/
@[reducible] def target : Target where
  State := IRModule
  Operand := IROperand
  Function := IRFunction
  declare := declare
  beginBody := beginBody
  argument := emitArgument
  literal := emitLiteral
  primitive := emitPrimitive
  call := emitCall
  finishBody := finishBody

end StackEffect.IRModule
