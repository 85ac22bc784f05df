/-!
Documents in the TOML format: tables of named values. A document is put together from statements
in order. No value is ever replaced: a statement that would do so is refused, as is one that opens
a table again.
-/
namespace StackEffect.Document

/-- How a table came to be: under a header of its own, on the way to one, through a dotted key, or
written out as a value. -/
inductive Origin
  | header
  | passed
  | dotted
  | inline
deriving DecidableEq, Inhabited

/-- Floats, dates and times are kept as they are written. -/
inductive Value
  | string (text : String)
  | integer (value : Int)
  | float (text : String)
  | boolean (value : Bool)
  | moment (text : String)
  | list (items : List Value)
  | table (origin : Origin) (entries : List (String × Value))
  | tables (elements : List (List (String × Value)))
deriving Inhabited

abbrev Entries := List (String × Value)

/-- A dotted key: the tables on the way, and the name in the last of them. -/
structure Key where
  path : List String
  name : String
deriving DecidableEq, Inhabited

def Key.ofParts (parts : List String) : Key := ⟨parts.dropLast, parts.getLastD ""⟩

def Key.text (key : Key) : String := ".".intercalate (key.path ++ [key.name])

inductive Statement
  | assign (key : Key) (value : Value)
  | openTable (key : Key)
  | openElement (key : Key)
deriving Inhabited

namespace Entries

def find? (entries : Entries) (name : String) : Option Value := entries.lookup name

/-- Puts something in the place of the value under a name. The change may be refused. -/
def alter (name : String) (change : Option Value → Option Value) : Entries → Option Entries
  | [] => (change none).map fun value => [(name, value)]
  | (n, value) :: rest =>
    if n = name then (change (some value)).map fun value => (n, value) :: rest
    else (alter name change rest).map ((n, value) :: ·)

/-- Changes the table at the end of a path; tables that are missing are made. In a list of tables
the last one is meant. A dotted key may not reach into a table that has a header, and nothing may
reach into one that is written out as a value. -/
def within (missing : Origin) (change : Origin → Entries → Option Entries) :
    List String → Origin → Entries → Option Entries
  | [], origin, entries => change origin entries
  | name :: path, _, entries => entries.alter name fun
    | none => (within missing change path missing []).map (.table missing)
    | some (.table origin inner) =>
      if origin = .inline ∨ (missing = .dotted ∧ origin = .header) then none
      else (within missing change path origin inner).map (.table origin)
    | some (.tables elements) =>
      (within missing change path .header (elements.getLastD [])).map fun last =>
        .tables (elements.dropLast ++ [last])
    | some _ => none

/-- Gives a value to a key. A dotted key ends in a table that dotted keys made. -/
def assign (key : Key) (value : Value) : Origin → Entries → Option Entries :=
  within .dotted (fun origin entries =>
    if key.path ≠ [] ∧ origin ≠ .dotted then none
    else entries.alter key.name fun
      | none => some value
      | some _ => none) key.path

/-- A table may get its header after tables inside it got theirs. -/
def openTable (key : Key) : Entries → Option Entries :=
  within .passed (fun _ entries => entries.alter key.name fun
    | none => some (.table .header [])
    | some (.table .passed inner) => some (.table .header inner)
    | some _ => none) key.path .header

def openElement (key : Key) : Entries → Option Entries :=
  within .passed (fun _ entries => entries.alter key.name fun
    | none => some (.tables [[]])
    | some (.tables elements) => some (.tables (elements ++ [[]]))
    | some _ => none) key.path .header

def ofPairs (pairs : List (Key × Value)) : Option Entries :=
  pairs.foldlM (fun entries (key, value) => assign key value .inline entries) []

end Entries

/-- What has been read so far, and the path to the table that assignments go to. -/
structure Assembly where
  entries : Entries := []
  current : List String := []
deriving Inhabited

namespace Statement

def key : Statement → Key
  | assign key _ | openTable key | openElement key => key

def apply (a : Assembly) : Statement → Option Assembly
  | assign key value =>
    (Entries.within .passed (Entries.assign key value) a.current .header a.entries).map
      fun entries => { a with entries }
  | openTable key =>
    (a.entries.openTable key).map fun entries => ⟨entries, key.path ++ [key.name]⟩
  | openElement key =>
    (a.entries.openElement key).map fun entries => ⟨entries, key.path ++ [key.name]⟩

end Statement
end StackEffect.Document
