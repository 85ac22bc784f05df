import StackEffect.Alphanumeric
import StackEffect.CompileError
import StackEffect.Signature

/-! Settings of a session: how the module is named, and the external words that are known from the
start. -/
namespace StackEffect

/-- An external word; without a symbol of its own it is linked under its name. The sides of its
signature are type lists such as `i i`. -/
structure ExternalWord where
  name : String
  symbol : Option String := none
  inputs : String := ""
  outputs : String := ""
deriving DecidableEq, Inhabited

/-- A symbol holds letters, digits, underscores and points only. -/
def checkSymbol (symbol : String) : Except CompileError Unit :=
  if symbol.isEmpty then .error (.config .emptySymbol)
  else match symbol.toList.find? fun c => !isAlphanumeric c && c ≠ '_' && c ≠ '.' with
    | some c => .error (.config (.invalidSymbol c symbol))
    | none => .ok ()

namespace ExternalWord

def withSymbol (w : ExternalWord) (symbol : String) : Except CompileError ExternalWord := do
  checkSymbol symbol
  return { w with symbol := some symbol }

def linkSymbol (w : ExternalWord) : String := w.symbol.getD w.name

def signature (w : ExternalWord) : Except CompileError Signature :=
  Signature.ofCodes w.name w.inputs w.outputs

def check (w : ExternalWord) : Except CompileError Unit := do
  if w.name.isEmpty then throw (.config .emptyExternName)
  w.symbol.forM checkSymbol
  discard w.signature

end ExternalWord

/-- The module is named for the language if nothing else is asked for. -/
def defaultModuleName : String := "llforth"

/-- The system and the processor that the program runs on. -/
structure Host where
  system : String
  processor : String
deriving DecidableEq

def Host.triple (h : Host) : String :=
  match h.system, h.processor with
  | "macos", "aarch64" => "arm64-apple-macosx14.0.0"
  | "macos", "x86_64" => "x86_64-apple-darwin"
  | "linux", "x86_64" => "x86_64-unknown-linux-gnu"
  | "linux", "aarch64" => "aarch64-unknown-linux-gnu"
  | "windows", "x86_64" => "x86_64-pc-windows-msvc"
  | _, _ => "unknown"

/-- The machine that code is generated for if nothing else is asked for; the program runs on it. -/
def hostTriple : String := Host.triple ⟨"linux", "x86_64"⟩

structure Config where
  targetTriple : Option String := none
  moduleName : String := defaultModuleName
  externals : List ExternalWord := []
  traceDefinitions : Bool := false
deriving DecidableEq, Inhabited

end StackEffect
