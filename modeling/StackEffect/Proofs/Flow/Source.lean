import Mathlib.Data.List.Forall2
import StackEffect.Proofs.ValueType

/-!
Where the values on the stack of a body come from, and what types they have. To use a value where a
type is asked for may settle the type of an argument; the order of two uses does not matter
(`Source.accept_comm`).
-/
namespace StackEffect

/-- Where a value on the stack of a body comes from: either the body has made it, with a type for
good, or it is an argument. -/
inductive Source
  | made (type : ValueType)
  | taken (index : Nat)
deriving DecidableEq

namespace Source

def type (takes : List ValueType) : Source → ValueType
  | made type => type
  | taken index => takes[index]?.getD .any

/-- Of the arguments only the first `count` may be meant. -/
def Within (count : Nat) : Source → Prop
  | made _ => True
  | taken index => index < count

/-- The types of the arguments once the value stands where `required` is asked for. -/
def accept (required : ValueType) (takes : List ValueType) : Source → Option (List ValueType)
  | made type => if ValueType.compatible required type then some takes else none
  | taken index => takes[index]?.bind fun actual =>
    (ValueType.meet? required actual).map (takes.set index)

/-- What stands for the source where `sources` stand for the arguments. -/
def via (sources : List Source) : Source → Source
  | made type => made type
  | taken index => sources[index]?.getD (made .any)

variable {s t : Source} {takes takes' : List ValueType} {required : ValueType}

theorem Within.mono {m n : Nat} (hs : s.Within m) (h : m ≤ n) : s.Within n := by
  cases s with
  | made type => trivial
  | taken index => exact Nat.lt_of_lt_of_le hs h

theorem accept_made (required type : ValueType) (takes : List ValueType) :
    (made type).accept required takes =
      if ValueType.compatible required type then some takes else none := rfl

theorem accept_taken {index : Nat} {actual : ValueType} (h : takes[index]? = some actual)
    (required : ValueType) : (taken index).accept required takes =
      (ValueType.meet? required actual).map (takes.set index) := by
  rw [accept, h, Option.bind_some]

theorem accept_taken_of_none {index : Nat} (h : takes[index]? = none) (required : ValueType) :
    (taken index).accept required takes = none := by
  rw [accept, h, Option.bind_none]

theorem accept_made_eq_some {type : ValueType} :
    (made type).accept required takes = some takes' ↔
      ValueType.compatible required type = true ∧ takes' = takes := by
  rw [accept_made]
  by_cases h : ValueType.compatible required type = true <;> simp [h, eq_comm]

theorem accept_taken_eq_some {index : Nat} :
    (taken index).accept required takes = some takes' ↔ ∃ actual type,
      takes[index]? = some actual ∧ ValueType.meet? required actual = some type ∧
      takes' = takes.set index type := by
  rw [accept, Option.bind_eq_some_iff]
  refine exists_congr fun actual => ?_
  rw [Option.map_eq_some_iff]
  constructor
  · rintro ⟨ha, type, ht, rfl⟩
    exact ⟨type, ha, ht, rfl⟩
  · rintro ⟨type, ha, ht, rfl⟩
    exact ⟨ha, type, ht, rfl⟩

theorem length_accept (h : s.accept required takes = some takes') : takes'.length = takes.length := by
  cases s with
  | made type => rw [(accept_made_eq_some.mp h).2]
  | taken index =>
    obtain ⟨actual, type, -, -, rfl⟩ := accept_taken_eq_some.mp h
    exact List.length_set

theorem accept_of_compatible (hs : s.Within takes.length)
    (h : ValueType.compatible required (s.type takes) = true) :
    s.accept required takes = some takes := by
  cases s with
  | made type => exact if_pos h
  | taken index =>
    have hlt : index < takes.length := hs
    have hget := List.getElem?_eq_getElem hlt
    simp only [type, hget, Option.getD_some] at h
    rw [accept_taken hget, ValueType.meet?_of_compatible h, Option.map_some, List.set_getElem_self]

theorem accept_of_open {index : Nat} (h : takes[index]? = some .any)
    (hr : required.isConcrete = true) :
    (taken index).accept required takes = some (takes.set index required) := by
  rw [accept_taken h, ValueType.meet?_of_concrete hr, Option.map_some]

theorem accept_eq_none (hc : ¬ValueType.compatible required (s.type takes) = true)
    (h : ∀ index, s = taken index → takes[index]? = some .any → required.isConcrete = false) :
    s.accept required takes = none := by
  cases s with
  | made type => exact if_neg hc
  | taken index =>
    refine Option.eq_none_iff_forall_ne_some.mpr fun takes' ht => ?_
    obtain ⟨actual, type, ha, hm, -⟩ := accept_taken_eq_some.mp ht
    rcases ValueType.meet?_eq_some hm with ⟨-, hc'⟩ | ⟨rfl, hr, -⟩
    · exact hc (by simpa only [Source.type, ha, Option.getD_some] using hc')
    · rw [h index rfl ha] at hr
      cases hr

theorem accept_set_of_ne {i j : Nat} (h : i ≠ j) (required type : ValueType)
    (takes : List ValueType) : (taken i).accept required (takes.set j type) =
      ((taken i).accept required takes).map (List.set · j type) := by
  have hget : (takes.set j type)[i]? = takes[i]? := List.getElem?_set_ne (Ne.symm h)
  cases hi : takes[i]? with
  | none => rw [accept_taken_of_none hi, accept_taken_of_none (hget.trans hi), Option.map_none]
  | some actual =>
    rw [accept_taken hi, accept_taken (hget.trans hi)]
    cases ValueType.meet? required actual with
    | none => rfl
    | some type' => exact congrArg some (List.set_comm _ _ (Ne.symm h))

theorem accept_comm_made (type first second : ValueType) (s : Source) (takes : List ValueType) :
    ((made type).accept first takes).bind (s.accept second ·) =
      (s.accept second takes).bind ((made type).accept first ·) := by
  by_cases h : ValueType.compatible first type = true <;> simp [accept_made, h]

theorem accept_comm_taken (index : Nat) (first second : ValueType) (takes : List ValueType) :
    ((taken index).accept first takes).bind ((taken index).accept second ·) =
      ((taken index).accept second takes).bind ((taken index).accept first ·) := by
  cases hget : takes[index]? with
  | none =>
    rw [accept_taken_of_none hget, accept_taken_of_none hget]
    rfl
  | some actual =>
    have hlt := (List.getElem?_eq_some_iff.mp hget).1
    have hboth : ∀ required required',
        ((taken index).accept required takes).bind ((taken index).accept required' ·) =
          ((ValueType.meet? required actual).bind (ValueType.meet? required')).map
            (takes.set index) := by
      intro required required'
      rw [accept_taken hget]
      cases ValueType.meet? required actual with
      | none => rfl
      | some type =>
        have hget' : (takes.set index type)[index]? = some type := List.getElem?_set_self hlt
        simp only [Option.map_some, Option.bind_some, accept_taken hget']
        congr 1
        funext type'
        exact List.set_set ..
    rw [hboth, hboth, ValueType.meet?_comm]

/-- It does not matter which of two uses comes first. -/
theorem accept_comm (s t : Source) (first second : ValueType) (takes : List ValueType) :
    (s.accept first takes).bind (t.accept second ·) =
      (t.accept second takes).bind (s.accept first ·) := by
  cases s with
  | made type => exact accept_comm_made ..
  | taken i =>
    cases t with
    | made type => exact (accept_comm_made ..).symm
    | taken j =>
      by_cases hij : i = j
      · subst hij
        exact accept_comm_taken ..
      cases hi : (taken i).accept first takes with
      | none =>
        cases hj : (taken j).accept second takes with
        | none => rfl
        | some after =>
          obtain ⟨-, type, -, -, rfl⟩ := accept_taken_eq_some.mp hj
          rw [Option.bind_some, accept_set_of_ne hij, hi]
          rfl
      | some after =>
        obtain ⟨-, type, -, -, rfl⟩ := accept_taken_eq_some.mp hi
        rw [Option.bind_some, accept_set_of_ne (Ne.symm hij)]
        cases hj : (taken j).accept second takes with
        | none => rfl
        | some after =>
          obtain ⟨-, type', -, -, rfl⟩ := accept_taken_eq_some.mp hj
          rw [Option.bind_some, accept_set_of_ne hij, hi]
          exact congrArg some (List.set_comm _ _ (Ne.symm hij))

/-! ### Types that get more definite -/

/-- What could stand somewhere by its type still can. -/
def Settles (takes takes' : List ValueType) : Prop := ∀ (s : Source) (required : ValueType),
  ValueType.compatible required (s.type takes) = true →
    ValueType.compatible required (s.type takes') = true

theorem Settles.refl (takes : List ValueType) : Settles takes takes := fun _ _ h => h

theorem Settles.trans {first second third : List ValueType} (h : Settles first second)
    (h' : Settles second third) : Settles first third := fun s required hs =>
  h' s required (h s required hs)

theorem settles_append (takes more : List ValueType) : Settles takes (takes ++ more) := by
  intro s required h
  cases s with
  | made type => exact h
  | taken index =>
    by_cases hi : index < takes.length
    · simpa [type, List.getElem?_append_left hi] using h
    · rw [type, List.getElem?_eq_none (Nat.le_of_not_lt hi)] at h
      have hr : required = .any := by simpa [ValueType.compatible] using h
      rw [hr, ValueType.compatible_any]

theorem settles_accept (h : s.accept required takes = some takes') : Settles takes takes' := by
  intro t required' ht
  cases s with
  | made type => rwa [(accept_made_eq_some.mp h).2]
  | taken index =>
    obtain ⟨actual, type, ha, hm, rfl⟩ := accept_taken_eq_some.mp h
    cases t with
    | made type' => exact ht
    | taken i =>
      by_cases hi : i = index
      · subst hi
        have hlt := (List.getElem?_eq_some_iff.mp ha).1
        simp only [Source.type, ha, Option.getD_some] at ht
        simp only [Source.type, List.getElem?_set_self hlt, Option.getD_some]
        rcases ValueType.meet?_eq_some hm with ⟨rfl, -⟩ | ⟨rfl, -, rfl⟩
        · exact ht
        · have hr : required' = .any := by simpa [ValueType.compatible] using ht
          rw [hr, ValueType.compatible_any]
      · simpa only [Source.type, List.getElem?_set_ne (Ne.symm hi)] using ht

theorem compatible_of_accept (h : s.accept required takes = some takes') :
    ValueType.compatible required (s.type takes') = true := by
  cases s with
  | made type => exact (accept_made_eq_some.mp h).1
  | taken index =>
    obtain ⟨actual, type, ha, hm, rfl⟩ := accept_taken_eq_some.mp h
    have hlt := (List.getElem?_eq_some_iff.mp ha).1
    simp only [Source.type, List.getElem?_set_self hlt, Option.getD_some]
    rcases ValueType.meet?_eq_some hm with ⟨rfl, hc⟩ | ⟨-, -, rfl⟩
    · exact hc
    · exact ValueType.compatible_self _

theorem accept_append (hs : s.Within takes.length) (more : List ValueType) :
    s.accept required (takes ++ more) = (s.accept required takes).map (· ++ more) := by
  cases s with
  | made type =>
    rw [accept_made, accept_made]
    by_cases h : ValueType.compatible required type = true <;> simp [h]
  | taken index =>
    have hlt : index < takes.length := hs
    have hget := List.getElem?_eq_getElem hlt
    have hget' : (takes ++ more)[index]? = some takes[index] :=
      (List.getElem?_append_left hlt).trans hget
    rw [accept_taken hget, accept_taken hget']
    cases ValueType.meet? required takes[index] with
    | none => rfl
    | some type => exact congrArg some (List.set_append_left _ _ hlt)

end Source

end StackEffect
