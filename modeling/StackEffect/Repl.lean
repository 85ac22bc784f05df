import StackEffect.Compiler
import StackEffect.TypedLine

/-! Interactive sessions. Lines are collected until what they hold is complete. -/
namespace StackEffect

structure Repl where
  session : Session Machine.target
  pending : String := ""

namespace Repl

def start (config : Config) : Except CompileError Repl := do
  return { session := ← machineSession config }

def prompt (r : Repl) : String := if r.pending.isEmpty then "ok> " else "..> "

def endLine (text : String) : String :=
  if text.isEmpty || text.endsWith "\n" then text else text ++ "\n"

def run (session : Session Machine.target) (text : String) : String × Repl :=
  match Session.run text session with
  | .ok _ s =>
    let (printed, session) := s.takeOutput
    (endLine printed, { session })
  | .error e s =>
    let (printed, session) := s.takeOutput
    (printed ++ s!"Error: {e.message}\n", { session })

/-- Takes one more line, and tells what it makes appear. -/
def feed (r : Repl) (line : String) : String × Repl :=
  if r.pending.isEmpty && isAllBlank line then ("", r)
  else
    let text := r.pending ++ line ++ "\n"
    if isIncomplete text then ("", { r with pending := text }) else run r.session text

/-- All that appears while lines are read, up to the prompt that nothing answers. -/
def transcript (r : Repl) : List String → String
  | [] => r.prompt
  | line :: rest =>
    let (shown, after) := r.feed line
    r.prompt ++ shown ++ after.transcript rest

/-- The lines of an input, as they are typed; only the last may lack its end. -/
def linesOf (input : String) : List String :=
  let pieces := input.splitOn "\n"
  let last := pieces.getLastD ""
  (pieces.dropLast.map withoutReturn ++ if last.isEmpty then [] else [last]).map TypedLine.textOf
where
  withoutReturn (line : String) : String :=
    if line.endsWith "\r" then (line.dropEnd 1).toString else line

end Repl
end StackEffect
