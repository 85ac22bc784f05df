/-! Classes of characters given by a table of code point ranges. -/
namespace StackEffect

/-- Both ends of a range belong to it. -/
abbrev CharRange := Nat × Nat

def inRanges (ranges : List CharRange) (c : Char) : Bool :=
  ranges.any fun range => range.1 ≤ c.toNat && c.toNat ≤ range.2

@[simp] theorem inRanges_nil (c : Char) : inRanges [] c = false := rfl

@[simp] theorem inRanges_cons (range : CharRange) (ranges : List CharRange) (c : Char) :
    inRanges (range :: ranges) c =
      ((range.1 ≤ c.toNat && c.toNat ≤ range.2) || inRanges ranges c) := rfl

end StackEffect
