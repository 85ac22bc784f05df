import StackEffect.Config
import StackEffect.Dictionary
import StackEffect.Phrase

/-!
Sessions. A session reads a text phrase by phrase: a definition is compiled, a declaration is
entered, and any other token is executed on the runtime stack at once. An error ends the run and
leaves the session usable, with all definitions that were complete.
-/
namespace StackEffect

inductive Mode
  | topLevel
  | definingBody
  | definingExternal
deriving DecidableEq, Inhabited

/-- `functions` has one place for each word of the dictionary; `stack` starts with its top;
`draft` is the body that is being read. -/
structure Session (T : Target) where
  dictionary : Dictionary
  target : T.State
  functions : FunctionTable T
  draft : Draft := {}
  stack : List Value := []
  traces : Bool := false
  output : String := ""
  mode : Mode := .topLevel

namespace Session
variable {T : Target}

def ofTarget (target : T.State) : Session T where
  dictionary := .withBuiltins
  target := target
  functions := Array.replicate Dictionary.withBuiltins.size none

def onTarget {α : Type} (action : Action T.State α) : Action (Session T) α :=
  action.within target fun target s => { s with target }

def onDraft {α : Type} (action : Action Draft α) : Action (Session T) α :=
  action.within draft fun draft s => { s with draft }

def print (text : String) : Action (Session T) Unit :=
  modify fun s => { s with output := s.output ++ text }

/-- Takes over what executed code has printed. -/
def takeOver (s : Session T) : Session T :=
  let (printed, target) := T.takeOutput s.target
  { s with target, output := s.output ++ printed }

def enter (w : Word) (function : Option T.Function) : Action (Session T) WordId := fun s =>
  .ok s.dictionary.size
    { s with
      dictionary := s.dictionary.enter w
      functions := s.functions.push function }

def declareExternal (name symbol : String) (signature : Signature) :
    Action (Session T) WordId := do
  let function ← onTarget (T.declare name symbol signature)
  enter (.external name symbol signature) (some function)

def ofConfig (target : T.State) (config : Config) : Except CompileError (Session T) :=
  let declare (w : ExternalWord) : Action (Session T) Unit := do
    let signature ← Action.ofExcept w.signature
    discard (declareExternal w.name w.linkSymbol signature)
  match config.externals.forM declare (ofTarget target) with
  | .ok _ s => .ok { s with traces := config.traceDefinitions }
  | .error e _ => .error e

/-! ### Definitions -/

def constant (t : Token) : Except CompileError Value :=
  match t.literal with
  | some value => .ok value
  | none => .error (.unknownToken t.text)

def isString (t : Token) : Bool :=
  match t.literal with
  | some (.str _) => true
  | _ => false

/-- The word that a token names. A string names none; a number does if there is such a word. -/
def named (d : Dictionary) (t : Token) : Option (WordId × Word) :=
  if isString t then none else d.lookup t.text

def compileWord (id : WordId) (w : Word) (position : Nat) : Action Draft Unit :=
  match w.kind with
  | .builtin (.primitive p) => discard (Draft.apply p position)
  | .builtin (.directive _) => throw (.unsupported (.directiveInside w.name))
  | .pending => throw (.unsupported (.callsPending w.name))
  | .compiled _ | .external .. =>
    match w.isInline, w.definition? with
    | true, some d => d.inlineInto position
    | _, _ => do
      let signature ← Action.ofExcept w.signature
      discard (Draft.call { word := id, name := w.name, signature } position)

def compileToken (t : Token) (position : Nat) : Action (Session T) Unit := do
  match named (← get).dictionary t with
  | some (id, w) => onDraft (compileWord id w position)
  | none =>
    let value ← Action.ofExcept (constant t)
    discard (onDraft (Draft.literal value))

/-- Turns the draft into a definition and starts afresh. -/
def finishDraft (name : String) (body : List Token) : Action (Session T) Definition := fun s =>
  .ok
    { name
      graph := s.draft.graph
      arguments := s.draft.arguments.toList
      outputs := s.draft.contents
      source := body.map Token.text }
    { s with draft := {} }

/-- Makes the word that held the place of a definition visible. -/
def complete (id : WordId) (d : Definition) (function : T.Function) : Action (Session T) Unit :=
  modify fun s =>
    { s with
      functions := s.functions.setIfInBounds id (some function)
      dictionary := s.dictionary.modify id fun w => { w with kind := .compiled d, isHidden := false }
      mode := .topLevel }

/-- Compiles a definition. Its word stays hidden up to the end, so that its name in the body means
an older word. -/
def define (name : String) (body : List Token) (fault : Option CompileError) :
    Action (Session T) Unit := do
  modify fun s => { s with mode := .definingBody, draft := {} }
  let id ← enter (.pending name) none
  body.zipIdx.forM fun (t, position) => compileToken t position
  fault.forM throw
  let d ← finishDraft name body
  let signature ← Action.ofExcept d.signature
  let function ← onTarget (T.declare name name signature)
  let functions := (← get).functions
  discard (onTarget (d.compile function functions))
  if (← get).traces then print (d.trace ++ "\n")
  complete id d function

/-- Enters an external word that is linked under its name. -/
def declare (name : String) (inputs outputs : List String) : Action (Session T) Unit := do
  modify fun s => { s with mode := .definingExternal }
  let inputs ← Action.ofExcept (ValueType.ofCodes name inputs)
  let outputs ← Action.ofExcept (ValueType.ofCodes name outputs)
  discard (declareExternal name name ⟨inputs, outputs⟩)
  modify fun s => { s with mode := .topLevel }

/-! ### Immediate execution -/

def push (values : List Value) : Action (Session T) Unit :=
  modify fun s => { s with stack := values.reverse ++ s.stack }

def drop (count : Nat) : Action (Session T) Unit :=
  modify fun s => { s with stack := s.stack.drop count }

/-- The top `count` values that `word` needs, the top one first. They stay on the stack. -/
def topValues (word : String) (count : Nat) : Action (Session T) (List Value) := do
  let stack := (← get).stack
  if count ≤ stack.length then return stack.take count
  else throw (.stackUnderflow word count stack.length)

def checkOperand (word : String) (position : Nat) (required : ValueType) (value : Value) :
    Except CompileError Unit :=
  if ValueType.compatible required value.type then .ok ()
  else .error (.typeMismatch word position required value.type)

def executePrimitive (p : Primitive) (position : Nat) : Action (Session T) Unit := do
  let operands := (← topValues p.name p.inputArity).reverse
  Action.ofExcept (operands.forM (checkOperand p.name position p.operandType))
  let results ← Action.ofExcept (p.eval operands)
  drop p.inputArity
  push results

/-- Calls a compiled or external word. Once its arguments are accepted they are taken off the
stack, whatever becomes of the call. -/
def executeWord (id : WordId) (w : Word) (position : Nat) : Action (Session T) Unit := do
  let signature ← Action.ofExcept w.signature
  let arguments ← topValues w.name signature.inputArity
  Action.ofExcept ((signature.inputs.zip arguments).forM fun (required, value) =>
    checkOperand w.name position required value)
  drop signature.inputArity
  match ((← get).functions[id]?).join with
  | none => throw (.unsupported (.notCompiled w.name))
  | some function =>
    let results ← onTarget (T.execute function arguments)
    modify takeOver
    push results

def executeDirective : Directive → Action (Session T) Unit
  | .print => do
    let values ← topValues "." 1
    drop 1
    print (String.join (values.map fun value => value.text ++ " "))
  | .printStack => do
    let stack := (← get).stack
    print s!"<{stack.length}> {spaced (stack.reverse.map Value.text)}\n"
  | .markInline => do
    match (← get).dictionary.latestDefinition with
    | none => throw (.unsupported .nothingToInline)
    | some id => modify fun s => { s with dictionary := s.dictionary.markInline id }
  | .see => throw (.unknownToken "see")
  | .words => do
    print (spaced ((← get).dictionary.visible.map fun (_, w) => w.name) ++ "\n")

def see (name : String) : Action (Session T) Unit := do
  match (← get).dictionary.lookup name with
  | none => throw (.unknownToken name)
  | some (_, w) =>
    match w.definition? with
    | some d => print (d.trace ++ "\n")
    | none => print (w.text ++ "\n")

def executeToken (t : Token) (position : Nat) : Action (Session T) Unit := do
  match named (← get).dictionary t with
  | none =>
    let value ← Action.ofExcept (constant t)
    push [value]
  | some (id, w) =>
    match w.kind with
    | .builtin (.primitive p) => executePrimitive p position
    | .builtin (.directive d) => executeDirective d
    | .pending => throw (.unsupported (.executesPending w.name))
    | .compiled _ | .external .. => executeWord id w position

/-! ### Runs -/

def seesNext (s : Session T) (t : Token) : Bool :=
  match named s.dictionary t with
  | some (_, w) => w.kind = .builtin (.directive .see)
  | none => false

/-- Deals with a phrase whose first token is at `position` in the text. -/
def perform (position : Nat) : Phrase → Action (Session T) Unit
  | .definition name body fault => define name body fault
  | .declaration name inputs outputs => declare name inputs outputs
  | .see name => see name
  | .token t => executeToken t position

/-- Reads on from a place in a text, up to its end or the first error. -/
def runFrom (c : Cursor) : Action (Session T) Unit := fun s =>
  match _h : c.nextPhrase s.seesNext with
  | .error e => .error e s
  | .ok none => .ok () s
  | .ok (some (phrase, rest)) =>
    match perform c.consumed phrase s with
    | .error e s => .error e s
    | .ok _ s => runFrom rest s
termination_by c.rest.length
decreasing_by exact Cursor.length_nextPhrase_lt ‹_›

/-- Gives up an unfinished definition or declaration. -/
def reset (s : Session T) : Session T := { s with mode := .topLevel, draft := {} }

def run (text : String) : Action (Session T) Unit := fun s =>
  match runFrom (Cursor.ofText text) s with
  | .ok _ s => .ok () s.takeOver
  | .error e s => .error e s.reset.takeOver

/-! ### What a session tells -/

def takeOutput (s : Session T) : String × Session T := (s.output, { s with output := "" })

def signature (s : Session T) (name : String) : Except CompileError Signature :=
  match s.dictionary.lookup name with
  | some (_, w) => w.signature
  | none => .error (.unknownToken name)

def definition? (s : Session T) (name : String) : Option Definition :=
  (s.dictionary.lookup name).bind fun (_, w) => w.definition?

end Session
end StackEffect
