import StackEffect.Definition

/-!
The words that a session knows. Nothing is ever removed: a new word with a known name hides the
older one from look-ups, and code that was compiled before keeps calling the older one.
-/
namespace StackEffect

/-- A `pending` word holds the place of a definition that is being read. -/
inductive WordKind
  | builtin (b : Builtin)
  | compiled (d : Definition)
  | external (signature : Signature) (symbol : String)
  | pending
deriving DecidableEq

/-- An inline word is put in the place of its call; a hidden one is passed over by look-ups. -/
structure Word where
  name : String
  kind : WordKind
  isInline : Bool := false
  isHidden : Bool := false
deriving DecidableEq

namespace Word

def builtin (name : String) (b : Builtin) : Word := { name, kind := .builtin b, isInline := true }

def external (name symbol : String) (signature : Signature) : Word :=
  { name, kind := .external signature symbol }

def pending (name : String) : Word := { name, kind := .pending, isHidden := true }

def definition? (w : Word) : Option Definition :=
  match w.kind with
  | .compiled d => some d
  | _ => none

def isBuiltin (w : Word) : Bool :=
  match w.kind with
  | .builtin _ => true
  | _ => false

def isUser (w : Word) : Bool :=
  match w.kind with
  | .compiled _ | .external .. => true
  | .builtin _ | .pending => false

def signature (w : Word) : Except CompileError Signature :=
  match w.kind with
  | .compiled d => d.signature
  | .external signature _ => .ok signature
  | .builtin _ | .pending => .error (.unsupported (.noFixedSignature w.name))

def text (w : Word) : String :=
  match w.kind with
  | .builtin _ => s!"{w.name} (builtin)"
  | .compiled d => d.text ++ if w.isInline then " inline" else ""
  | .external signature symbol =>
    s!"extern {w.name} {signature.text}" ++ if symbol = w.name then "" else " \\ " ++ symbol
  | .pending => s!": {w.name} ..."

end Word

structure Dictionary where
  words : Array Word := #[]
deriving DecidableEq, Inhabited

namespace Dictionary

def size (d : Dictionary) : Nat := d.words.size

def word? (d : Dictionary) (id : WordId) : Option Word := d.words[id]?

/-- Enters a word; its place is the size of the dictionary before. -/
def enter (d : Dictionary) (w : Word) : Dictionary := ⟨d.words.push w⟩

@[simp] theorem size_enter (d : Dictionary) (w : Word) : (d.enter w).size = d.size + 1 := by
  simp [enter, size]

theorem word?_enter (d : Dictionary) (w : Word) (id : WordId) :
    (d.enter w).word? id = if id = d.size then some w else d.word? id :=
  Array.getElem?_push

def withBuiltins : Dictionary :=
  builtinWords.foldl (fun d (name, b) => d.enter (.builtin name b)) {}

def modify (d : Dictionary) (id : WordId) (change : Word → Word) : Dictionary :=
  ⟨d.words.modify id change⟩

@[simp] theorem size_modify (d : Dictionary) (id : WordId) (change : Word → Word) :
    (d.modify id change).size = d.size := by
  simp [modify, size]

def setHidden (d : Dictionary) (id : WordId) (hidden : Bool) : Dictionary :=
  d.modify id fun w => { w with isHidden := hidden }

def markInline (d : Dictionary) (id : WordId) : Dictionary :=
  d.modify id fun w => { w with isInline := true }

def newestBelow (d : Dictionary) (p : Word → Bool) : Nat → Option WordId
  | 0 => none
  | count + 1 => if (d.word? count).any p then some count else d.newestBelow p count

def newest (d : Dictionary) (p : Word → Bool) : Option WordId :=
  d.newestBelow (fun w => !w.isHidden && p w) d.size

def find (d : Dictionary) (name : String) : Option WordId := d.newest (·.name = name)

def lookup (d : Dictionary) (name : String) : Option (WordId × Word) := do
  let id ← d.find name
  return (id, ← d.word? id)

def latestDefinition (d : Dictionary) : Option WordId := d.newest (·.definition?.isSome)

def visible (d : Dictionary) : List (WordId × Word) :=
  ((List.range d.size).zip d.words.toList).reverse.filter fun (_, w) => !w.isHidden

/-- The visible words that users have entered, oldest first, with their signatures. -/
def userWords (d : Dictionary) : List (String × Signature) :=
  d.visible.reverse.filterMap fun (_, w) =>
    if w.isUser then w.signature.toOption.map fun s => (w.name, s) else none

end Dictionary
end StackEffect
