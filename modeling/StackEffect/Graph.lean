import StackEffect.Evaluation
import StackEffect.Signature

/-!
The expression graph of a body. Nodes stand in the order of their creation and name the outputs of
other nodes as their inputs. A shuffle produces nothing of its own: `origin` follows each of its
outputs to the operand that it repeats, and the type of an output is the type at its origin.
-/
namespace StackEffect

/-- A node's place in its graph. -/
abbrev NodeId := Nat

/-- A word's place in its dictionary. -/
abbrev WordId := Nat

/-- One of the values that a node produces. -/
structure Output where
  node : NodeId
  index : Nat
deriving DecidableEq, Inhabited

/-- The word that a call names, with its signature at the time of the call. -/
structure Callee where
  word : WordId
  name : String
  signature : Signature
deriving DecidableEq

/-- An argument carries its number and the type that its first use asked for. -/
inductive NodeKind
  | literal (value : Value)
  | argument (index : Nat) (declared : ValueType)
  | primitive (p : Primitive)
  | call (callee : Callee)
deriving DecidableEq

namespace NodeKind

def inputArity : NodeKind → Nat
  | literal _ | argument .. => 0
  | primitive p => p.inputArity
  | call callee => callee.signature.inputArity

def outputArity : NodeKind → Nat
  | literal _ | argument .. => 1
  | primitive p => p.outputArity
  | call callee => callee.signature.outputArity

def label : NodeKind → String
  | literal value => value.label
  | argument index _ => s!"arg{index}"
  | primitive p => p.name
  | call callee => callee.name

end NodeKind

/-- The inputs of a primitive go from the bottom of the stack to its top, those of a call from the
top down. -/
structure Node where
  kind : NodeKind
  inputs : List Output
deriving DecidableEq

namespace Node

def inputArity (n : Node) : Nat := n.kind.inputArity

def outputArity (n : Node) : Nat := n.kind.outputArity

def label (n : Node) : String := n.kind.label

/-- For an output of a shuffle, the input that it repeats. -/
def repeated? (n : Node) (index : Nat) : Option Output :=
  match n.kind with
  | .primitive p => do n.inputs[← (← p.sources?)[index]?]?
  | _ => none

end Node

/-- `bindings` holds the types that later uses gave to arguments, the latest first. -/
structure Graph where
  nodes : Array Node := #[]
  bindings : List (NodeId × ValueType) := []
deriving DecidableEq, Inhabited

namespace Graph

def size (g : Graph) : Nat := g.nodes.size

def node? (g : Graph) (id : NodeId) : Option Node := g.nodes[id]?

def add (g : Graph) (kind : NodeKind) (inputs : List Output) : Graph :=
  { g with nodes := g.nodes.push ⟨kind, inputs⟩ }

@[simp] theorem size_add (g : Graph) (kind : NodeKind) (inputs : List Output) :
    (g.add kind inputs).size = g.size + 1 := by
  simp [add, size]

theorem node?_add (g : Graph) (kind : NodeKind) (inputs : List Output) (id : NodeId) :
    (g.add kind inputs).node? id = if id = g.size then some ⟨kind, inputs⟩ else g.node? id :=
  Array.getElem?_push

def addPrimitive (g : Graph) (p : Primitive) (inputs : List Output) : Except CompileError Graph :=
  if inputs.length = p.inputArity then .ok (g.add (.primitive p) inputs)
  else .error (.arity p.name (.inputCount inputs.length p.inputArity))

def addCall (g : Graph) (callee : Callee) (inputs : List Output) : Except CompileError Graph :=
  if inputs.length = callee.signature.inputArity then .ok (g.add (.call callee) inputs)
  else .error (.arity callee.name (.argumentCount inputs.length callee.signature.inputArity))

def inputArity (g : Graph) (id : NodeId) : Nat := ((g.node? id).map Node.inputArity).getD 0

def outputArity (g : Graph) (id : NodeId) : Nat := ((g.node? id).map Node.outputArity).getD 0

def label (g : Graph) (id : NodeId) : String := ((g.node? id).map Node.label).getD ""

def inputType (g : Graph) (id : NodeId) (index : Nat) : Except CompileError ValueType :=
  match (g.node? id).map Node.kind with
  | some (.primitive p) => p.inputType index
  | some (.call callee) =>
    match callee.signature.inputs[index]? with
    | some type => .ok type
    | none => .error (.indexOutOfRange index callee.signature.inputArity)
  | _ => .error (.takesNoInputs (g.label id))

def repeated? (g : Graph) (output : Output) : Option Output :=
  (g.node? output.node).bind (·.repeated? output.index)

/-- Goes back through at most `steps` shuffles. -/
def originWithin (g : Graph) : Nat → Output → Output
  | 0, output => output
  | steps + 1, output =>
    match g.repeated? output with
    | some source => g.originWithin steps source
    | none => output

/-- The output that an output repeats in the end. A way back passes a node once at most, so it has
no more steps than the graph has nodes. -/
def origin (g : Graph) (output : Output) : Output := g.originWithin g.size output

/-- The type that a later use gave to an argument, or else the declared one. -/
def argumentType (g : Graph) (id : NodeId) (declared : ValueType) : ValueType :=
  (g.bindings.lookup id).getD declared

def producedType? (g : Graph) (output : Output) : Option ValueType :=
  match (g.node? output.node).map Node.kind with
  | some (.literal value) => some value.type
  | some (.argument _ declared) => some (g.argumentType output.node declared)
  | some (.primitive p) => p.outputType? output.index
  | some (.call callee) => callee.signature.outputs[output.index]?
  | none => none

def outputType (g : Graph) (output : Output) : Except CompileError ValueType :=
  if output.index < g.outputArity output.node then
    let source := g.origin output
    match g.producedType? source with
    | some type => .ok type
    | none => .error (.indexOutOfRange source.index (g.outputArity source.node))
  else .error (.indexOutOfRange output.index (g.outputArity output.node))

def bind (g : Graph) (id : NodeId) (type : ValueType) : Graph :=
  { g with bindings := (id, type) :: g.bindings }

/-- Whether a node is an argument that no use has given a type to. -/
def isUnbound (g : Graph) (id : NodeId) : Bool :=
  match (g.node? id).map Node.kind with
  | some (.argument _ .any) => (g.bindings.lookup id).isNone
  | _ => false

def describe (g : Graph) (output : Output) : String :=
  if g.outputArity output.node = 1 then s!"#{output.node}" else s!"#{output.node}.{output.index}"

def line (g : Graph) (id : NodeId) : String :=
  let inputs := ((g.node? id).map Node.inputs).getD []
  s!"#{id} = " ++ spaced (g.label id :: inputs.map g.describe)

def lines (g : Graph) : List String := (List.range g.size).map g.line

def text (g : Graph) : String := String.join (g.lines.map (· ++ "\n"))

end Graph
end StackEffect
