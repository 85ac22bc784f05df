import StackEffect.Binary32
import StackEffect.Quoted
import StackEffect.ValueType

/-! Constants: the items of the runtime stack and the literals of a body. -/
namespace StackEffect

inductive Value
  | int (n : Int32)
  | float (x : Float32)
  | str (s : String)
deriving DecidableEq

namespace Value

instance : Inhabited Value := ⟨.int 0⟩

def type : Value → ValueType
  | int _ => .int32
  | float _ => .float
  | str _ => .string

def intText (n : Int32) : String := toString n.toInt

/-- The text that printing the value yields: a string is printed bare. -/
def text : Value → String
  | int n => intText n
  | float x => Binary32.text x
  | str s => s

/-- The value as it stands in a label, where a string is quoted. -/
def label : Value → String
  | str s => quoted s
  | value => value.text

/-- The value with the name of its kind, as listings of code show it. -/
def described : Value → String
  | int n => "Int(" ++ intText n ++ ")"
  | float x => "Float(" ++ Binary32.text x ++ ")"
  | str s => "Str(" ++ quoted s ++ ")"

@[simp] theorem isConcrete_type (value : Value) : value.type.isConcrete = true := by
  cases value <;> rfl

end Value

def bracketed (items : List String) : String := "[" ++ ", ".intercalate items ++ "]"

def spaced (items : List String) : String := " ".intercalate items

end StackEffect
