import StackEffect.Graph
import StackEffect.Target

/-!
Generating code for a graph. Each node is generated once, after its inputs and however many nodes
use it; the operands of its outputs are kept in a cache.
-/
namespace StackEffect

/-- The operands of the outputs of each node that has been generated. -/
abbrev OperandCache (T : Target) := Array (Option (List T.Operand))

structure Emission (T : Target) where
  target : T.State
  cache : OperandCache T

namespace Emission
variable {T : Target}

def emptyCache (T : Target) (g : Graph) : OperandCache T := Array.replicate g.size none

def onTarget {α : Type} (action : Action T.State α) : Action (Emission T) α :=
  action.within target fun t e => { e with target := t }

/-- Runs an action that starts from a cache, and answers the cache at its end as well. -/
def withCache {α : Type} (cache : OperandCache T) (action : Action (Emission T) α) :
    Action T.State (α × OperandCache T) := fun t =>
  match action ⟨t, cache⟩ with
  | .ok a e => .ok (a, e.cache) e.target
  | .error fault e => .error fault e.target

def cached? (e : Emission T) (id : NodeId) : Option (List T.Operand) := (e.cache[id]?).join

def store (e : Emission T) (id : NodeId) (operands : List T.Operand) : Emission T :=
  { e with cache := e.cache.setIfInBounds id (some operands) }

/-- The one call for a node, given the operands of its inputs. A shuffle needs no call: its outputs
are operands that are there already. -/
def emit (g : Graph) (functions : FunctionTable T) (id : NodeId) (kind : NodeKind)
    (operands : List T.Operand) : Action T.State (List T.Operand) :=
  match kind with
  | .literal value => do return [← T.literal value]
  | .argument index _ => do
    let type ← Action.ofExcept (g.outputType ⟨id, 0⟩)
    return [← T.argument index type]
  | .primitive p =>
    match p.sources? with
    | some sources => pure (sources.filterMap (operands[·]?))
    | none => T.primitive p operands
  | .call callee =>
    match (functions[callee.word]?).join with
    | some function => T.call function operands
    | none => throw (.unsupported (.calleeNotCompiled callee.name))

def pick (operands : List T.Operand) (index : Nat) : Except CompileError T.Operand :=
  match operands[index]? with
  | some operand => .ok operand
  | none => .error (.indexOutOfRange index operands.length)

/-- The operands of a node's outputs, generated now if they are not in the cache. `depth` bounds
the length of the chains of inputs that are followed. -/
def nodeWithin (g : Graph) (functions : FunctionTable T) :
    Nat → NodeId → Action (Emission T) (List T.Operand)
  | 0, _ => throw (.unsupported .circularBody)
  | depth + 1, id => do
    match (← get).cached? id with
    | some operands => return operands
    | none =>
      match g.node? id with
      | none => throw (.indexOutOfRange id g.size)
      | some node =>
        let operands ← node.inputs.mapM fun input => do
          Action.ofExcept (pick (← nodeWithin g functions depth input.node) input.index)
        let results ← onTarget (emit g functions id node.kind operands)
        if results.length = node.outputArity then
          modify (·.store id results)
          return results
        else
          throw (.arity node.label (.resultCount results.length node.outputArity))

/-- The operands of a node's outputs. A chain of inputs without a circle is no longer than the
graph has nodes. -/
def node (g : Graph) (functions : FunctionTable T) (id : NodeId) :
    Action (Emission T) (List T.Operand) :=
  nodeWithin g functions g.size id

def value (g : Graph) (functions : FunctionTable T) (output : Output) :
    Action (Emission T) T.Operand := do
  Action.ofExcept (pick (← node g functions output.node) output.index)

/-- Generates all nodes in the order of their creation, then looks up the outputs. -/
def body (g : Graph) (functions : FunctionTable T) (outputs : List Output) :
    Action (Emission T) (List T.Operand) := do
  (List.range g.size).forM fun id => discard (node g functions id)
  outputs.mapM (value g functions)

end Emission
end StackEffect
