import StackEffect.CommandLine

/-! The program: files, standard input and standard output. -/
namespace StackEffect

def errorText (number : Nat) (details : String) : String :=
  match number with
  | 2 => "No such file or directory"
  | 13 => "Permission denied"
  | 20 => "Not a directory"
  | 21 => "Is a directory"
  | 36 => "File name too long"
  | _ => details

/-- The reason of a failure with its number, which may come with its sign changed. -/
def reasonOf : IO.Error → String
  | .noFileOrDirectory _ code details | .permissionDenied _ code details
  | .inappropriateType _ code details | .invalidArgument _ code details =>
    let number := (Int32.ofNat code.toNat).toInt.natAbs
    s!"{errorText number details} (os error {number})"
  | e => toString e

def diskFiles : Files IO where
  read path := do
    try
      match String.fromUTF8? (← IO.FS.readBinFile path) with
      | some text => return .ok text
      | none => return .error "stream did not contain valid UTF-8"
    catch e => return .error (reasonOf e)
  write path text := do
    try
      IO.FS.writeFile path text
      return .ok ()
    catch e => return .error (reasonOf e)

/-- Shows the prompt and reads on until the input ends. -/
partial def Repl.interact (r : Repl) : IO Unit := do
  IO.print r.prompt
  (← IO.getStdout).flush
  let line ← (← IO.getStdin).getLine
  match linesOf line with
  | [] => return ()
  | line :: _ =>
    let (shown, after) := r.feed line
    IO.print shown
    after.interact

def interactive (path : Option String) : IO Report := do
  let start : ExceptT CompileError IO Repl := do
    Repl.start (← Request.configuration diskFiles path)
  match ← start.run with
  | .ok r =>
    IO.print banner
    r.interact
    return {}
  | .error e => return .failure e

end StackEffect

def main (arguments : List String) : IO UInt32 := do
  let report ← match StackEffect.Request.ofArguments arguments with
    | .invoke path .repl => StackEffect.interactive path
    | request => request.perform StackEffect.diskFiles []
  IO.print report.shown
  IO.eprint report.complaint
  return report.code.toUInt32
