import StackEffect.Draft
import StackEffect.Emission

/-! Finished bodies: their signature, their texts, their code, and their use in place of a call. -/
namespace StackEffect

/-- `outputs` is what the body leaves, from the bottom to the top of the stack; `source` holds the
tokens of the body as they were written. -/
structure Definition where
  name : String
  graph : Graph := {}
  arguments : List NodeId := []
  outputs : List Output := []
  source : List String := []
deriving DecidableEq, Inhabited

namespace Definition

def signature (d : Definition) : Except CompileError Signature := do
  return ⟨← d.arguments.mapM fun id => d.graph.outputType ⟨id, 0⟩,
    ← d.outputs.mapM d.graph.outputType⟩

/-- Generates the body of a function that has been declared, and answers the operands of all
nodes. -/
def compile {T : Target} (d : Definition) (function : T.Function) (functions : FunctionTable T) :
    Action T.State (OperandCache T) := do
  T.beginBody function
  let (outputs, cache) ← Emission.withCache (Emission.emptyCache T d.graph)
    (Emission.body d.graph functions d.outputs)
  T.finishBody function outputs
  return cache

/-- The output in the caller that stands for one of this body, given the caller's outputs for the
arguments and the copies of the nodes so far. -/
def transfer (d : Definition) (arguments : List Output) (copies : Array (Option NodeId))
    (output : Output) : Except CompileError Output :=
  let copy := match (d.graph.node? output.node).map Node.kind with
    | some (.argument index _) => arguments[index]?
    | _ => (copies[output.node]?).join.map fun id => ⟨id, output.index⟩
  match copy with
  | some output => .ok output
  | none => .error (.unsupported (.operandBeforeDefinition d.name))

def copyNode (d : Definition) (arguments : List Output) (copies : Array (Option NodeId))
    (node : Node) : Action Draft (Array (Option NodeId)) := do
  let inputs ← Action.ofExcept (node.inputs.mapM (d.transfer arguments copies))
  let copy ← match node.kind with
    | .argument .. => pure none
    | .literal value => some <$> Draft.insert fun g => .ok (g.add (.literal value) [])
    | .primitive p => some <$> Draft.insert (·.addPrimitive p inputs)
    | .call callee => some <$> Draft.insert (·.addCall callee inputs)
  return copies.push copy

/-- Puts the body in the place of a call: takes the arguments that the signature asks for, copies
all other nodes and pushes the outputs. -/
def inlineInto (d : Definition) (position : Nat) : Action Draft Unit := do
  let signature ← Action.ofExcept d.signature
  let arguments ← Draft.popAll signature.inputs d.name position
  let copies ← d.graph.nodes.toList.foldlM (d.copyNode arguments) #[]
  d.outputs.forM fun output => do
    let output ← Action.ofExcept (d.transfer arguments copies output)
    modify (·.pushOutput output)

def trace (d : Definition) : String :=
  let signature := match d.signature with
    | .ok s => s.text
    | .error e => "<" ++ e.message ++ ">"
  String.join ((s!": {d.name} {signature}" :: d.graph.lines.map ("  " ++ ·)).map (· ++ "\n"))
    ++ "  -> [" ++ spaced (d.outputs.map d.graph.describe) ++ "]\n;"

/-- The definition as it may be written, with its signature as a comment. -/
def text (d : Definition) : String :=
  let signature := match d.signature with
    | .ok s => [s.text]
    | .error _ => []
  spaced ([":", d.name] ++ signature ++ d.source ++ [";"])

end Definition
end StackEffect
