import StackEffect.Compiler
import StackEffect.Settings

/-! Sources and configurations that are kept in files. -/
namespace StackEffect

/-- How texts are read and written. Both actions answer the reason when they fail. -/
structure Files (m : Type → Type) where
  read (path : String) : m (Except String String)
  write (path text : String) : m (Except String Unit)

variable {m : Type → Type} [Monad m]

def readSource (files : Files m) (path : String) : ExceptT CompileError m String := do
  match ← files.read path with
  | .ok text => return text
  | .error reason => throw (.file path reason)

def Config.load (files : Files m) (path : String) : ExceptT CompileError m Config := do
  match ← files.read path with
  | .ok text => Config.ofText text
  | .error reason => throw (.config (.unreadable path reason))

/-- Compiles the source at one path to a module at another. Nothing is written if the source has
an error. -/
def compileFile (files : Files m) (source target : String) (config : Config) :
    ExceptT CompileError m Unit := do
  let text ← compileText (← readSource files source) config
  match ← files.write target text with
  | .ok _ => return ()
  | .error reason => throw (.file target reason)

end StackEffect
