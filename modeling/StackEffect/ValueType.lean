/-! Types of stack values. No type turns into another one by itself; only a cast word does that. -/
namespace StackEffect

/-- `null` stands for the lack of a value, and `any` is what a word that only moves values around
asks for. -/
inductive ValueType
  | null
  | int32
  | float
  | string
  | any
deriving DecidableEq, Inhabited

namespace ValueType

def name : ValueType → String
  | null => "Null"
  | int32 => "Int32"
  | float => "Float"
  | string => "String"
  | any => "Any"

def code : ValueType → String
  | null => "*"
  | int32 => "i"
  | float => "f"
  | string => "s"
  | any => "?"

/-- The type that a letter stands for; no letter asks for the lack of a value. -/
def ofCode? (text : String) : Option ValueType :=
  [int32, float, string, any].find? (·.code = text)

def isConcrete : ValueType → Bool
  | int32 | float | string => true
  | null | any => false

/-- Whether a value of type `actual` will do where `required` is asked for. -/
def compatible (required actual : ValueType) : Bool := required = actual || required = any

@[simp] theorem compatible_self (type : ValueType) : compatible type type = true := by
  simp [compatible]

@[simp] theorem compatible_any (actual : ValueType) : compatible any actual = true := by
  simp [compatible]

@[simp] theorem ofCode?_code (type : ValueType) (h : type ≠ null) :
    ofCode? type.code = some type := by
  cases type <;> first | contradiction | rfl

end ValueType
end StackEffect
