import StackEffect.IRTarget
import StackEffect.MachineTarget
import StackEffect.Session

/-! Whole texts: running them, checking them and compiling them to a module. -/
namespace StackEffect

def machineSession (config : Config) : Except CompileError (Session Machine.target) :=
  Session.ofConfig ({} : Machine) config

def moduleSession (config : Config) : Except CompileError (Session IRModule.target) :=
  Session.ofConfig
    ({ name := config.moduleName, triple := config.targetTriple.getD hostTriple } : IRModule) config

def Session.afterRun {T : Target} (s : Session T) (text : String) :
    Except CompileError (Session T) :=
  match run text s with
  | .ok _ s => .ok s
  | .error e _ => .error e

def runText (text : String) (config : Config) : Except CompileError String := do
  let s ← (← machineSession config).afterRun text
  return s.output

/-- The words that a text leaves visible, with their signatures, in the order of their entry. -/
def checkText (text : String) (config : Config) :
    Except CompileError (List (String × Signature)) := do
  let s ← (← machineSession config).afterRun text
  return s.dictionary.userWords

/-- The module that a text compiles to. Words that would have to be executed are refused. -/
def compileText (text : String) (config : Config) : Except CompileError String := do
  let s ← (← moduleSession config).afterRun text
  return IRModule.text s.target

end StackEffect
