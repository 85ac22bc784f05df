import StackEffect.Action
import StackEffect.Graph

/-!
A body while it is being read. The stack holds outputs instead of values; what a word takes beyond
the bottom of the stack becomes an argument of the body, typed by that use. Arguments are numbered
in the order in which they are first needed, so argument 0 is the top of the caller's stack.
-/
namespace StackEffect

/-- The stack starts with its top. -/
structure Draft where
  graph : Graph := {}
  stack : List Output := []
  arguments : Array NodeId := #[]
deriving DecidableEq, Inhabited

namespace Draft

def clear (d : Draft) : Draft := { graph := d.graph }

def contents (d : Draft) : List Output := d.stack.reverse

def pushOutput (d : Draft) (output : Output) : Draft := { d with stack := output :: d.stack }

/-- Pushes all outputs of a node, the last one on top. -/
def pushNode (d : Draft) (id : NodeId) : Draft :=
  (List.range (d.graph.outputArity id)).foldl (fun d index => d.pushOutput ⟨id, index⟩) d

def assume (d : Draft) (type : ValueType) : Output × Draft :=
  (⟨d.graph.size, 0⟩,
    { d with
      graph := d.graph.add (.argument d.arguments.size type) []
      arguments := d.arguments.push d.graph.size })

def takeTop (d : Draft) (type : ValueType) : Output × Draft :=
  match d.stack with
  | output :: rest => (output, { d with stack := rest })
  | [] => d.assume type

/-- Lets a value stand where `required` is asked for. An argument whose type is still open takes
on the type that is asked for. -/
def accept (d : Draft) (output : Output) (required : ValueType) (word : String)
    (position : Nat) : Except CompileError Draft := do
  let actual ← d.graph.outputType output
  let source := (d.graph.origin output).node
  if ValueType.compatible required actual then return d
  else if actual = .any && required.isConcrete && d.graph.isUnbound source then
    return { d with graph := d.graph.bind source required }
  else throw (.typeMismatch word position required actual)

/-- Takes a value that `word`, the token at `position`, asks for. -/
def pop (required : ValueType) (word : String) (position : Nat) : Action Draft Output := fun d =>
  let (output, d) := d.takeTop required
  match d.accept output required word position with
  | .ok d => .ok output d
  | .error e => .error e d

def popAll (types : List ValueType) (word : String) (position : Nat) :
    Action Draft (List Output) :=
  types.mapM fun type => pop type word position

def insert (add : Graph → Except CompileError Graph) : Action Draft NodeId := fun d =>
  match add d.graph with
  | .ok g => .ok d.graph.size { d with graph := g }
  | .error e => .error e d

def place (add : Graph → Except CompileError Graph) : Action Draft NodeId := do
  let id ← insert add
  modify (·.pushNode id)
  return id

def literal (value : Value) : Action Draft NodeId := place fun g => .ok (g.add (.literal value) [])

def apply (p : Primitive) (position : Nat) : Action Draft NodeId := do
  let inputs ← popAll (List.replicate p.inputArity p.operandType) p.name position
  place (·.addPrimitive p inputs.reverse)

def call (callee : Callee) (position : Nat) : Action Draft NodeId := do
  let inputs ← popAll callee.signature.inputs callee.name position
  place (·.addCall callee inputs)

end Draft
end StackEffect
