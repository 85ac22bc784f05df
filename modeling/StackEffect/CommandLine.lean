import StackEffect.Files
import StackEffect.Repl

/-!
The command line. Options may stand before the command or after it; an option has a long name and
may have a letter, its value is in the same argument or in the next one, and everything behind
`--` is an input. What is given after the command has precedence.
-/
namespace StackEffect

inductive Command
  | build (input : String) (output : Option String)
  | run (input : String)
  | check (input : String)
  | repl
deriving DecidableEq

inductive Request
  | invoke (config : Option String) (command : Command)
  | version
  | help
  | misuse
deriving DecidableEq

namespace Request

/-- Where an argument stands: before the command or behind it. -/
inductive Scope
  | top
  | build
  | run
  | check
  | repl
deriving DecidableEq

namespace Scope

def ofName? : String → Option Scope
  | "build" => some build
  | "run" => some run
  | "check" => some check
  | "repl" => some repl
  | _ => none

def inputCount : Scope → Nat
  | top | repl => 0
  | build | run | check => 1

end Scope

inductive Flag
  | config
  | output
  | verbose
  | version
  | help
deriving DecidableEq

namespace Flag

def ofName? (scope : Scope) : String → Option Flag
  | "config" => some config
  | "verbose" => some verbose
  | "help" => some help
  | "version" => if scope = .top then some version else none
  | "output" => if scope = .build then some output else none
  | _ => none

def ofLetter? (scope : Scope) : Char → Option Flag
  | 'v' => some verbose
  | 'h' => some help
  | 'V' => if scope = .top then some version else none
  | 'o' => if scope = .build then some output else none
  | _ => none

def takesPath : Flag → Bool
  | config | output => true
  | verbose | version | help => false

end Flag

structure Choices where
  config : Option String := none
  output : Option String := none
  verbose : Bool := false
  inputs : List String := []
deriving DecidableEq, Inhabited

namespace Choices

/-- Gives an option its path, which may not be empty. No option is given twice. -/
def setPath (c : Choices) (flag : Flag) (path : String) : Except Request Choices :=
  if path.isEmpty then .error misuse
  else match flag, c.config, c.output with
    | .config, none, _ => .ok { c with config := some path }
    | .output, _, none => .ok { c with output := some path }
    | _, _, _ => .error misuse

def raise (c : Choices) : Flag → Except Request Choices
  | .verbose => if c.verbose then .error misuse else .ok { c with verbose := true }
  | .version => .error version
  | .help => .error help
  | .config | .output => .error misuse

def addInput (scope : Scope) (c : Choices) (input : String) : Except Request Choices :=
  if input.isEmpty ∨ scope.inputCount ≤ c.inputs.length then .error misuse
  else .ok { c with inputs := c.inputs ++ [input] }

/-- Reads the letters behind a dash, and tells which option still has to get its path. -/
def letters (scope : Scope) (c : Choices) : List Char → Except Request (Choices × Option Flag)
  | [] => .ok (c, none)
  | letter :: rest =>
    match Flag.ofLetter? scope letter, rest with
    | none, _ => .error misuse
    | some flag, rest =>
      if flag.takesPath then
        match rest with
        | [] => .ok (c, some flag)
        | '=' :: path => (c.setPath flag (String.ofList path)).map (·, none)
        | path => (c.setPath flag (String.ofList path)).map (·, none)
      else (c.raise flag).bind fun c => c.letters scope rest

def word (scope : Scope) (c : Choices) (text : List Char) :
    Except Request (Choices × Option Flag) :=
  match Flag.ofName? scope (String.ofList (text.takeWhile (· ≠ '='))),
      text.dropWhile (· ≠ '=') with
  | none, _ => .error misuse
  | some flag, _ :: path =>
    if flag.takesPath then (c.setPath flag (String.ofList path)).map (·, none)
    else .error misuse
  | some flag, [] =>
    if flag.takesPath then .ok (c, some flag) else (c.raise flag).map (·, none)

/-- Reads the arguments of a scope; `waiting` is an option whose path comes next. Before the
command, reading stops at the first argument that is no option. -/
def read (scope : Scope) (c : Choices) (waiting : Option Flag) :
    List String → Except Request (Choices × List String)
  | [] => if waiting.isSome then .error misuse else .ok (c, [])
  | argument :: rest =>
    match waiting, argument.toList with
    | none, ['-', '-'] => do return (← rest.foldlM (addInput scope) c, [])
    | none, '-' :: '-' :: text => do
      let (c, waiting) ← c.word scope text
      c.read scope waiting rest
    | none, '-' :: letter :: text => do
      let (c, waiting) ← c.letters scope (letter :: text)
      c.read scope waiting rest
    | none, _ =>
      if scope = .top then .ok (c, argument :: rest)
      else do (← c.addInput scope argument).read scope none rest
    | some _, '-' :: _ :: _ => .error misuse
    | some flag, _ => do (← c.setPath flag argument).read scope none rest

def command? (c : Choices) : Scope → Option Command
  | .top => none
  | .build => c.inputs.head?.map (.build · c.output)
  | .run => c.inputs.head?.map .run
  | .check => c.inputs.head?.map .check
  | .repl => some .repl

end Choices

def ofArguments (arguments : List String) : Request :=
  let answer : Except Request Request := do
    let (before, rest) ← Choices.read .top {} none arguments
    let some scope := rest.head?.bind Scope.ofName? | throw misuse
    let (after, _) ← Choices.read scope {} none rest.tail
    let some command := after.command? scope | throw misuse
    return invoke (after.config.or before.config) command
  match answer with
  | .ok request | .error request => request

end Request

/-- A path with another extension, or with one if there was none. A point in front of a name starts
no extension. Where two points are all that comes before the extension, they lead out of the folder
and take no other. -/
def withExtension (extension path : String) : String :=
  let places := path.splitOn "/"
  let name := places.getLastD ""
  let stem := ".".intercalate (name.splitOn ".").dropLast
  let name :=
    if stem = "." then ".." else (if stem.isEmpty then name else stem) ++ "." ++ extension
  "/".intercalate (places.dropLast ++ [name])

def versionNumber : String := "0.1.0"

def versionText : String := s!"llforthc {versionNumber}\n"

def banner : String := s!"llforth {versionNumber} - Ctrl-D to exit\n"

def usage : String :=
  "Usage: llforthc [--config <path>] [-v] <command>\n\n" ++
  "Commands:\n" ++
  "  build <input> [-o <output>]  Compile a source to LLVM IR\n" ++
  "  run <input>                  Run a source\n" ++
  "  check <input>                Print the signatures of the words of a source\n" ++
  "  repl                         Start an interactive session\n"

/-- What a program leaves behind: its exit code and what it has shown. -/
structure Report where
  code : Nat := 0
  shown : String := ""
  complaint : String := ""
deriving DecidableEq, Inhabited

def Report.failure (e : CompileError) : Report :=
  { code := 1, complaint := s!"Error: {e.message}\n" }

variable {m : Type → Type} [Monad m]

def Request.configuration (files : Files m) : Option String → ExceptT CompileError m Config
  | some path => Config.load files path
  | none => return {}

/-- What a command shows if it succeeds; `input` has the lines of an interactive session. -/
def Command.perform (files : Files m) (input : List String) (config : Config) :
    Command → ExceptT CompileError m String
  | build source output => do
    let target := output.getD (withExtension "ll" source)
    compileFile files source target config
    return s!"Compiled {source} -> {target}\n"
  | run source => do runText (← readSource files source) config
  | check source => do
    let words ← checkText (← readSource files source) config
    return String.join (words.map fun (name, signature) => s!"{name} {signature.text}\n")
  | repl => do return banner ++ (← Repl.start config).transcript input

def Request.perform (files : Files m) (input : List String) : Request → m Report
  | version => return { shown := versionText }
  | help => return { shown := usage }
  | misuse => return { code := 2, complaint := usage }
  | invoke path command => do
    match ← (configuration files path >>= command.perform files input).run with
    | .ok shown => return { shown }
    | .error e => return .failure e

end StackEffect
