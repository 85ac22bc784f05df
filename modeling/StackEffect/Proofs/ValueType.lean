import StackEffect.ValueType

/-!
Types that get more definite. What will do where a type is asked for still does when its own type has
become more definite (`ValueType.Refines.compatible`), and an open type is settled by the first use
that asks for a definite one (`ValueType.meet?`).
-/
namespace StackEffect

/-- `later` is the type itself or, where the type was open, a concrete one. -/
def ValueType.Refines (type later : ValueType) : Prop :=
  later = type ∨ type = .any ∧ later.isConcrete = true

namespace ValueType.Refines
variable {required type later latest : ValueType}

theorem refl (type : ValueType) : type.Refines type := .inl rfl

theorem trans (h : type.Refines later) (h' : later.Refines latest) : type.Refines latest := by
  rcases h with rfl | ⟨rfl, hl⟩
  · exact h'
  · rcases h' with rfl | ⟨rfl, -⟩
    · exact .inr ⟨rfl, hl⟩
    · simp [isConcrete] at hl

theorem eq_of_ne (h : type.Refines later) (hn : type ≠ .any) : later = type := by
  rcases h with h | ⟨h, -⟩
  · exact h
  · contradiction

end ValueType.Refines

theorem ValueType.compatible_iff {required actual : ValueType} :
    compatible required actual = true ↔ required = actual ∨ required = .any := by
  simp [compatible]

theorem ValueType.compatible_trans {required middle actual : ValueType}
    (h : compatible required middle = true) (h' : compatible middle actual = true) :
    compatible required actual = true := by
  rw [compatible_iff] at *
  rcases h with rfl | rfl
  · exact h'
  · exact .inr rfl

theorem ValueType.Refines.compatible {required type later : ValueType} (h : type.Refines later)
    (hc : compatible required type = true) : compatible required later = true := by
  rw [compatible_iff] at hc ⊢
  rcases hc with rfl | rfl
  · by_cases ha : required = .any
    · exact .inr ha
    · exact .inl (h.eq_of_ne ha).symm
  · exact .inr rfl

/-- The type that a value of type `actual` has from then on when it stands where `required` is asked
for. -/
def ValueType.meet? (required actual : ValueType) : Option ValueType :=
  if compatible required actual then some actual
  else if actual = any && required.isConcrete then some required
  else none

namespace ValueType

theorem meet?_comm (first second actual : ValueType) :
    (meet? first actual).bind (meet? second) = (meet? second actual).bind (meet? first) := by
  cases first <;> cases second <;> cases actual <;> rfl

theorem meet?_of_compatible {required actual : ValueType} (h : compatible required actual = true) :
    meet? required actual = some actual := if_pos h

theorem meet?_of_concrete {required : ValueType} (h : required.isConcrete = true) :
    meet? required any = some required := by
  cases required <;> simp_all [meet?, isConcrete, compatible]

theorem meet?_eq_some {required actual type : ValueType} (h : meet? required actual = some type) :
    type = actual ∧ compatible required actual = true ∨
      actual = any ∧ required.isConcrete = true ∧ type = required := by
  unfold meet? at h
  by_cases hc : compatible required actual = true
  · rw [if_pos hc] at h
    exact .inl ⟨(Option.some.inj h).symm, hc⟩
  · rw [if_neg hc] at h
    obtain ⟨ho, h⟩ := Option.ite_none_right_eq_some.mp h
    simp only [Bool.and_eq_true, decide_eq_true_eq] at ho
    exact .inr ⟨ho.1, ho.2, (Option.some.inj h).symm⟩

end ValueType
end StackEffect
