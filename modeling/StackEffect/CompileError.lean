import StackEffect.Operator
import StackEffect.Value

/-! What can go wrong, by cause, and the message for each cause. -/
namespace StackEffect

inductive DeclarationFault
  | missingName
  | missingOpen
  | unterminated
  | missingSeparator
  | repeatedSeparator
deriving DecidableEq

inductive ArityFault
  | unknownType (code : String)
  | operandCount (expected given : Nat)
  | inputCount (given expected : Nat)
  | argumentCount (given declared : Nat)
  | resultCount (produced declared : Nat)
  | declaration (fault : DeclarationFault)
deriving DecidableEq

/-- A use that the language or the code target does not provide for. -/
inductive UnsupportedUse
  | opensInside (token definition : String)
  | directiveInside (word : String)
  | callsPending (word : String)
  | executesPending (word : String)
  | notCompiled (word : String)
  | calleeNotCompiled (word : String)
  | noFixedSignature (word : String)
  | operandBeforeDefinition (word : String)
  | circularBody
  | nothingToInline
  | immediateExecution
  | outsideBody
  | bodyNotBegun
  | operandCount (word : String) (given : Nat)
  | loweringType (type : ValueType)
  | loweringPrimitive (word : String)
deriving DecidableEq

inductive RuntimeFault
  | divisionByZero (op : BinaryOp)
  | cannotCombine (op : BinaryOp) (left right : ValueType)
  | cannotConvert (cast : Cast) (type : ValueType)
  | callDepth
  | noFunction (index : Nat)
  | argumentCount (function : String) (given expected : Nat)
  | unsetRegister (register : Nat)
  | resultCount (index returned expected : Nat)
  | badArguments (native : String) (arguments : List Value)
  | unresolved (symbol : String)
deriving DecidableEq

inductive SettingsFault
  | unclear (line : Nat)
  | repeatedKey (key : String)
  | unknownKey (key : String)
  | wrongKind (key kind : String)
  | missingKey (key : String)
deriving DecidableEq

inductive ConfigFault
  | unreadable (path reason : String)
  | malformed (fault : SettingsFault)
  | emptyExternName
  | emptySymbol
  | invalidSymbol (c : Char) (symbol : String)
deriving DecidableEq

/-- `position` counts the tokens before the one at fault: in the body of a definition, or in the
whole text for a word that is executed at once. -/
inductive CompileError
  | unknownToken (name : String)
  | typeMismatch (word : String) (position : Nat) (expected actual : ValueType)
  | arity (word : String) (fault : ArityFault)
  | unsupported (use : UnsupportedUse)
  | indexOutOfRange (index arity : Nat)
  | takesNoInputs (node : String)
  | stackUnderflow (word : String) (required available : Nat)
  | unterminatedDefinition (name : String)
  | unterminatedString (line : Nat)
  | runtime (fault : RuntimeFault)
  | config (fault : ConfigFault)
  | file (path reason : String)
deriving DecidableEq

def DeclarationFault.message : DeclarationFault → String
  | missingName => "missing name"
  | missingOpen => "expected `(' after the name"
  | unterminated => "unterminated signature"
  | missingSeparator => "missing `--' in signature"
  | repeatedSeparator => "repeated `--' in signature"

def ArityFault.message : ArityFault → String
  | unknownType code => s!"unknown type `{code}' in signature"
  | operandCount expected given => s!"expected {expected} operand(s), got {given}"
  | inputCount given expected => s!"given {given} input(s), takes {expected}"
  | argumentCount given declared => s!"call requested {given} input(s), callee declares {declared}"
  | resultCount produced declared =>
    s!"backend produced {produced} value(s), node declares {declared}"
  | declaration fault => fault.message

def UnsupportedUse.message : UnsupportedUse → String
  | opensInside token definition => s!"`{token}' inside the definition of `{definition}'"
  | directiveInside word => s!"`{word}' inside a definition"
  | callsPending word => s!"calling `{word}' before it is defined"
  | executesPending word => s!"executing `{word}' before it is defined"
  | notCompiled word => s!"executing `{word}' without a compiled function"
  | calleeNotCompiled word => s!"call to `{word}' before it was compiled"
  | noFixedSignature word => s!"`{word}' has no fixed signature"
  | operandBeforeDefinition word => s!"inlining `{word}': operand used before definition"
  | circularBody => "compiling a body with a circular reference"
  | nothingToInline => "`inline' with no definition to mark"
  | immediateExecution => "immediate execution on this backend"
  | outsideBody => "emitting code outside a function body"
  | bodyNotBegun => "finishing a body that was never begun"
  | operandCount word given => s!"emitting `{word}' with {given} operand(s)"
  | loweringType type => s!"lowering type {type.name} to LLVM IR"
  | loweringPrimitive word => s!"lowering `{word}' to LLVM IR"

def RuntimeFault.message : RuntimeFault → String
  | divisionByZero op => s!"{op.symbol}: division by zero"
  | cannotCombine op left right => s!"{op.symbol}: cannot combine {left.name} and {right.name}"
  | cannotConvert cast type => s!"{cast.name}: cannot convert {type.name}"
  | callDepth => "call depth exceeded"
  | noFunction index => s!"no function f{index}"
  | argumentCount function given expected =>
    s!"{function}: given {given} argument(s), takes {expected}"
  | unsetRegister register => s!"read of unset register r{register}"
  | resultCount index returned expected =>
    s!"f{index} returned {returned} value(s), expected {expected}"
  | badArguments native arguments =>
    s!"{native}: bad arguments {bracketed (arguments.map Value.described)}"
  | unresolved symbol => s!"unresolved extern `{symbol}'"

def SettingsFault.message : SettingsFault → String
  | unclear line => s!"line {line} cannot be read"
  | repeatedKey key => s!"`{key}' is given more than once"
  | unknownKey key => s!"unknown key `{key}'"
  | wrongKind key kind => s!"`{key}' has to be {kind}"
  | missingKey key => s!"missing key `{key}'"

def ConfigFault.message : ConfigFault → String
  | unreadable path reason => s!"failed to read {path}: {reason}"
  | malformed fault => s!"failed to parse config: {fault.message}"
  | emptyExternName => "extern with empty name"
  | emptySymbol => "symbol name cannot be empty"
  | invalidSymbol c symbol => s!"invalid character '{c}' in symbol '{symbol}'"

def CompileError.message : CompileError → String
  | unknownToken name => s!"unknown token `{name}'"
  | typeMismatch word position expected actual =>
    s!"{word}: type mismatch at position {position}: expected {expected.name}, got {actual.name}"
  | arity word fault => s!"{word}: {fault.message}"
  | unsupported use => s!"unsupported operation: {use.message}"
  | indexOutOfRange index bound => s!"index {index} out of range for arity {bound}"
  | takesNoInputs node => s!"{node} takes no inputs"
  | stackUnderflow word required available =>
    s!"{word}: stack underflow: requires {required} value(s), {available} available"
  | unterminatedDefinition name => s!"unterminated definition of `{name}'"
  | unterminatedString line => s!"unterminated string literal starting on line {line}"
  | runtime fault => s!"runtime error: {fault.message}"
  | config fault => s!"configuration error: {fault.message}"
  | file path reason => s!"{path}: {reason}"

end StackEffect
