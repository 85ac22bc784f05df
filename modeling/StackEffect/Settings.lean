import StackEffect.Config
import StackEffect.Document.Statement

/-!
Configurations as documents. A configuration has four keys and no others; an external word may
have more keys than are known, or be a list of its name, symbol, inputs and outputs. The external
words are checked once all keys are read.
-/
namespace StackEffect
open Document (Entries)

def Document.ofText (text : String) : Except SettingsFault Entries := do
  let statements ← (Document.statements text).mapError .unclear
  let assembly ← statements.foldlM (fun (a : Document.Assembly) statement =>
    match statement.apply a with
    | some a => .ok a
    | none => .error (.repeatedKey statement.key.text)) {}
  return assembly.entries

def textOf (key : String) : Document.Value → Except SettingsFault String
  | .string text => .ok text
  | _ => .error (.wrongKind key "a string")

def truthOf (key : String) : Document.Value → Except SettingsFault Bool
  | .boolean b => .ok b
  | _ => .error (.wrongKind key "true or false")

namespace ExternalWord

def ofFields (name symbol inputs outputs : Option Document.Value) :
    Except SettingsFault ExternalWord := do
  let some name := name | .error (.missingKey "name")
  return {
    name := ← textOf "name" name
    symbol := ← symbol.mapM (textOf "symbol")
    inputs := (← inputs.mapM (textOf "inputs")).getD ""
    outputs := (← outputs.mapM (textOf "outputs")).getD "" }

def ofEntries (entries : Entries) : Except SettingsFault ExternalWord :=
  ofFields (entries.find? "name") (entries.find? "symbol") (entries.find? "inputs")
    (entries.find? "outputs")

def ofValue : Document.Value → Except SettingsFault ExternalWord
  | .table _ entries => ofEntries entries
  | .list items => ofFields items[0]? items[1]? items[2]? items[3]?
  | _ => .error (.wrongKind "externs" "a list of tables")

def allOfValue : Document.Value → Except SettingsFault (List ExternalWord)
  | .list items => items.mapM ofValue
  | .tables elements => elements.mapM ofEntries
  | _ => .error (.wrongKind "externs" "a list of tables")

end ExternalWord

namespace Config

def withKey (config : Config) (key : String) (value : Document.Value) : Except SettingsFault Config := do
  match key with
  | "target_triple" => return { config with targetTriple := some (← textOf key value) }
  | "module_name" => return { config with moduleName := ← textOf key value }
  | "trace_definitions" => return { config with traceDefinitions := ← truthOf key value }
  | "externs" => return { config with externals := ← ExternalWord.allOfValue value }
  | _ => .error (.unknownKey key)

def ofEntries (entries : Entries) : Except SettingsFault Config :=
  entries.foldlM (fun config (key, value) => config.withKey key value) {}

def ofText (text : String) : Except CompileError Config := do
  let config ← ((Document.ofText text).bind ofEntries).mapError fun fault =>
    .config (.malformed fault)
  config.externals.forM ExternalWord.check
  return config

end Config
end StackEffect
