import StackEffect.Machine
import StackEffect.Target

/-! Generating code for the register machine. -/
namespace StackEffect.Machine

def declare (name symbol : String) (signature : Signature) : Action Machine RoutineId := fun m =>
  .ok m.routines.size { m with routines := m.routines.push { name, symbol, signature } }

def beginBody (_ : RoutineId) : Action Machine Unit :=
  modify fun m => { m with building := some {} }

def emit (count : Nat) (instruction : Register → Instruction) : Action Machine Register := fun m =>
  match m.building with
  | none => .error (.unsupported .outsideBody) m
  | some body =>
    let first := body.registers
    let body := { body with
      registers := first + count
      code := body.code.push (instruction first) }
    .ok first { m with building := some body }

def emitPrimitive (p : Primitive) (operands : List Register) : Action Machine (List Register) :=
  match p, operands with
  | .binary op _, [left, right] => do return [← emit 1 fun r => .binary r op left right]
  | .cast c, [source] => do return [← emit 1 fun r => .cast r c source]
  | p, _ => throw (.unsupported (.operandCount p.name operands.length))

def emitCall (id : RoutineId) (arguments : List Register) : Action Machine (List Register) := do
  match (← get).routines[id]? with
  | none => throw (.runtime (.noFunction id))
  | some routine =>
    let count := routine.signature.outputArity
    let first ← emit count fun first => .call (List.range' first count) id arguments
    return List.range' first count

/-- Ends the body that is being built, whether or not there is a routine to take it. -/
def finishBody (id : RoutineId) (outputs : List Register) : Action Machine Unit := fun m =>
  match m.building with
  | none => .error (.unsupported .bodyNotBegun) m
  | some body =>
    let m := { m with building := none }
    match m.routines[id]? with
    | none => .error (.runtime (.noFunction id)) m
    | some routine =>
      let routine := { routine with body := some { body with outputs } }
      .ok () { m with routines := m.routines.setIfInBounds id routine }

/-- The register machine as a target of code generation; it can execute what it is given. -/
@[reducible] def target : Target where
  State := Machine
  Operand := Register
  Function := RoutineId
  declare := declare
  beginBody := beginBody
  argument index _ := emit 1 fun r => .argument r index
  literal value := emit 1 fun r => .constant r value
  primitive := emitPrimitive
  call := emitCall
  finishBody := finishBody
  execute := execute
  takeOutput m := (m.output, { m with output := "" })

end StackEffect.Machine
