import StackEffect.Action
import StackEffect.Evaluation
import StackEffect.Signature

/-!
A register machine. The body of a routine is a straight line of instructions, each of which writes
registers of its own; a routine without a body stands for a native of the host.
-/
namespace StackEffect

abbrev Register := Nat

/-- A routine's place in its machine. -/
abbrev RoutineId := Nat

inductive Instruction
  | argument (target : Register) (index : Nat)
  | constant (target : Register) (value : Value)
  | binary (target : Register) (op : BinaryOp) (left right : Register)
  | cast (target : Register) (c : Cast) (source : Register)
  | call (targets : List Register) (routine : RoutineId) (arguments : List Register)
deriving DecidableEq

/-- Registers are numbered from zero; `registers` of them have been handed out. -/
structure Body where
  registers : Nat := 0
  code : Array Instruction := #[]
  outputs : List Register := []
deriving DecidableEq, Inhabited

structure Routine where
  name : String
  symbol : String
  signature : Signature
  body : Option Body := none
deriving DecidableEq

/-- `building` is the body between its begin and its finish, and `output` what executed code has
printed since it was last taken. -/
structure Machine where
  routines : Array Routine := #[]
  building : Option Body := none
  output : String := ""
deriving DecidableEq, Inhabited

def registerText (r : Register) : String := s!"r{r}"

def registersText (rs : List Register) : String := spaced (rs.map registerText)

namespace Instruction

def targets : Instruction → List Register
  | argument target _ | constant target _ | binary target .. | cast target .. => [target]
  | call targets .. => targets

def text : Instruction → String
  | argument target index => s!"{registerText target} = arg {index}"
  | constant target value => s!"{registerText target} = const {value.described}"
  | binary target op left right =>
    s!"{registerText target} = {op.symbol} {registerText left} {registerText right}"
  | cast target c source => s!"{registerText target} = {c.name} {registerText source}"
  | call targets routine arguments =>
    s!"[{registersText targets}] = call f{routine} {registersText arguments}"

end Instruction

/-- The contents of registers; one that has not been written holds nothing. -/
abbrev RegisterFile := Array (Option Value)

namespace RegisterFile

def read (rs : RegisterFile) (r : Register) : Except CompileError Value :=
  match (rs[r]?).join with
  | some value => .ok value
  | none => .error (.runtime (.unsetRegister r))

def write (rs : RegisterFile) (r : Register) (value : Option Value) : RegisterFile :=
  rs.setIfInBounds r value

def writeAll (rs : RegisterFile) (targets : List Register) (values : List Value) : RegisterFile :=
  (targets.zip values).foldl (fun rs (r, value) => write rs r (some value)) rs

end RegisterFile

namespace Machine

def maxCallDepth : Nat := 1024

def native (symbol : String) (arguments : List Value) : Action String (List Value) :=
  if symbol = "print" then
    match arguments with
    | [.str s] => fun output => .ok [] (output ++ s)
    | _ => bad
  else if symbol = "print-int" then
    match arguments with
    | [.int n] => fun output => .ok [] (output ++ Value.intText n ++ "\n")
    | _ => bad
  else if symbol = "print-float" then
    match arguments with
    | [.float x] => fun output => .ok [] (output ++ Binary32.text x ++ "\n")
    | _ => bad
  else if symbol = "strlen" then
    match arguments with
    | [.str s] => pure [.int (Int32.ofNat s.utf8ByteSize)]
    | _ => bad
  else throw (.runtime (.unresolved symbol))
where
  bad : Action String (List Value) := throw (.runtime (.badArguments symbol arguments))

def step (call : RoutineId → List Value → Action String (List Value)) (arguments : List Value)
    (rs : RegisterFile) (i : Instruction) : Action String RegisterFile :=
  match i with
  | .argument target index => pure (rs.write target arguments[index]?)
  | .constant target value => pure (rs.write target (some value))
  | .binary target op left right => do
    let left ← Action.ofExcept (rs.read left)
    let right ← Action.ofExcept (rs.read right)
    return rs.write target (some (← Action.ofExcept (op.apply left right)))
  | .cast target c source => do
    let value ← Action.ofExcept (rs.read source)
    return rs.write target (some (← Action.ofExcept (c.apply value)))
  | .call targets routine inputs => do
    let values ← Action.ofExcept (inputs.mapM rs.read)
    let results ← call routine values
    if results.length = targets.length then return rs.writeAll targets results
    else throw (.runtime (.resultCount routine results.length targets.length))

/-- Calls a routine that may nest calls `depth` deep, itself counted. -/
def callWithin (routines : Array Routine) :
    Nat → RoutineId → List Value → Action String (List Value)
  | 0, _, _ => throw (.runtime .callDepth)
  | depth + 1, id, arguments =>
    match routines[id]? with
    | none => throw (.runtime (.noFunction id))
    | some routine =>
      match routine.body with
      | none => native routine.symbol arguments
      | some body => do
        if arguments.length ≠ routine.signature.inputArity then
          throw (.runtime (.argumentCount routine.name arguments.length
            routine.signature.inputArity))
        let rs ← body.code.toList.foldlM (step (callWithin routines depth) arguments)
          (Array.replicate body.registers none)
        Action.ofExcept (body.outputs.mapM (RegisterFile.read rs))

def withOutput {α : Type} (action : Action String α) : Action Machine α :=
  action.within output fun output m => { m with output }

/-- Runs a routine; only the printed text of the machine changes. -/
def execute (id : RoutineId) (arguments : List Value) : Action Machine (List Value) := do
  let routines := (← get).routines
  withOutput (callWithin routines (maxCallDepth + 1) id arguments)

def finished? (m : Machine) (id : RoutineId) : Option (Routine × Body) := do
  let routine ← m.routines[id]?
  return (routine, ← routine.body)

def code? (m : Machine) (id : RoutineId) : Option (List Instruction) :=
  (m.finished? id).map fun (_, body) => body.code.toList

def listing? (m : Machine) (id : RoutineId) : Option String :=
  (m.finished? id).map fun (routine, body) =>
    let lines := s!"f{id} {routine.name} {routine.signature.text}"
      :: body.code.toList.map (fun i => "  " ++ i.text)
      ++ ["  ret " ++ registersText body.outputs]
    String.join (lines.map (· ++ "\n"))

end Machine
end StackEffect
