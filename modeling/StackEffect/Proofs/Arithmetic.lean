import Mathlib.Data.Int.ModEq
import Mathlib.Algebra.Order.Group.Unbundled.Int
import StackEffect.Evaluation

/-!
Integer arithmetic. Sums, differences and products are the exact ones modulo `2 ^ 32`; quotients are cut
off towards zero, with the remainder that belongs to them. One quotient does not fit, that of the least
integer by minus one, and wraps around to the dividend (`toInt_div_eq`).
-/
namespace StackEffect

section Int32
variable {a b : Int32}

theorem modEq_of_toInt_eq_bmod {n : Int32} {x : Int} (h : n.toInt = x.bmod (2 ^ 32)) :
    n.toInt ≡ x [ZMOD 2 ^ 32] := by
  rw [h]
  exact Int.bmod_emod

/-- The only quotient that wraps around. -/
theorem toInt_div_eq (a b : Int32) :
    if a = Int32.minValue ∧ b = -1 then a / b = a else (a / b).toInt = a.toInt.tdiv b.toInt := by
  split_ifs with h
  · rw [h.1, h.2]
    decide
  · by_cases ha : a = Int32.minValue
    · exact Int32.toInt_div_of_ne_right a b fun hb => h ⟨ha, hb⟩
    · exact Int32.toInt_div_of_ne_left a b ha

/-- The dividend is put together again from quotient and remainder, also where the quotient wraps
around. -/
theorem div_mul_add_mod_modEq (a b : Int32) :
    (a / b).toInt * b.toInt + (a % b).toInt ≡ a.toInt [ZMOD 2 ^ 32] := by
  have hquotient : (a / b).toInt ≡ a.toInt.tdiv b.toInt [ZMOD 2 ^ 32] :=
    modEq_of_toInt_eq_bmod (Int32.toInt_div a b)
  calc (a / b).toInt * b.toInt + (a % b).toInt
      ≡ a.toInt.tdiv b.toInt * b.toInt + (a % b).toInt [ZMOD 2 ^ 32] :=
        (hquotient.mul_right _).add_right _
    _ = a.toInt.tdiv b.toInt * b.toInt + a.toInt.tmod b.toInt := by rw [Int32.toInt_mod]
    _ = a.toInt := Int.tdiv_mul_add_tmod ..

theorem abs_toInt_mod_lt (hb : b ≠ 0) : |(a % b).toInt| < |b.toInt| := by
  have hne : b.toInt ≠ 0 := fun h => hb (Int32.toInt_inj.mp h)
  have hlt : a.toInt.natAbs % b.toInt.natAbs < b.toInt.natAbs :=
    Nat.mod_lt _ (Int.natAbs_pos.mpr hne)
  rw [Int32.toInt_mod, Int.abs_eq_natAbs, Int.abs_eq_natAbs, Int.natAbs_tmod]
  exact Int.ofNat_lt.mpr hlt

theorem sign_toInt_mod (a b : Int32) : a % b = 0 ∨ (a % b).toInt.sign = a.toInt.sign := by
  have hsign := Int.sign_tmod a.toInt b.toInt
  rw [← Int32.toInt_mod] at hsign
  split_ifs at hsign
  · exact .inl (Int32.toInt_inj.mp (Int.sign_eq_zero_iff_zero.mp hsign))
  · exact .inr hsign

theorem mod_minValue_neg_one : Int32.minValue % (-1) = 0 := by decide

end Int32

namespace BinaryOp

/-- What an operation on two integers answers: sums, differences and products are exact modulo
`2 ^ 32`, and quotient and remainder fail just for the divisor zero. -/
structure Exact (a b : Int32) : Prop where
  add : ∃ n, add.apply (.int a) (.int b) = .ok (.int n) ∧ n.toInt ≡ a.toInt + b.toInt [ZMOD 2 ^ 32]
  sub : ∃ n, sub.apply (.int a) (.int b) = .ok (.int n) ∧ n.toInt ≡ a.toInt - b.toInt [ZMOD 2 ^ 32]
  mul : ∃ n, mul.apply (.int a) (.int b) = .ok (.int n) ∧ n.toInt ≡ a.toInt * b.toInt [ZMOD 2 ^ 32]
  div_fails : (∃ e, div.apply (.int a) (.int b) = .error e) ↔ b = 0
  mod_fails : (∃ e, mod.apply (.int a) (.int b) = .error e) ↔ b = 0
  division : b ≠ 0 → ∃ q r, div.apply (.int a) (.int b) = .ok (.int q) ∧
    mod.apply (.int a) (.int b) = .ok (.int r) ∧
    q.toInt * b.toInt + r.toInt ≡ a.toInt [ZMOD 2 ^ 32] ∧ |r.toInt| < |b.toInt| ∧
    (r = 0 ∨ r.toInt.sign = a.toInt.sign) ∧
    if a = Int32.minValue ∧ b = -1 then q = a ∧ r = 0 else q.toInt = a.toInt.tdiv b.toInt

theorem div_apply (a b : Int32) : div.apply (.int a) (.int b) =
    if b = 0 then .error (.runtime (.divisionByZero div)) else .ok (.int (a / b)) := by
  by_cases hb : b = 0 <;> simp [apply, onInts, hb, Except.map]

theorem mod_apply (a b : Int32) : mod.apply (.int a) (.int b) =
    if b = 0 then .error (.runtime (.divisionByZero mod)) else .ok (.int (a % b)) := by
  by_cases hb : b = 0 <;> simp [apply, onInts, hb, Except.map]

theorem exact (a b : Int32) : Exact a b where
  add := ⟨a + b, rfl, modEq_of_toInt_eq_bmod (Int32.toInt_add a b)⟩
  sub := ⟨a - b, rfl, modEq_of_toInt_eq_bmod (Int32.toInt_sub a b)⟩
  mul := ⟨a * b, rfl, modEq_of_toInt_eq_bmod (Int32.toInt_mul a b)⟩
  div_fails := by
    rw [div_apply]
    by_cases hb : b = 0 <;> simp [hb]
  mod_fails := by
    rw [mod_apply]
    by_cases hb : b = 0 <;> simp [hb]
  division hb := by
    refine ⟨a / b, a % b, by rw [div_apply, if_neg hb], by rw [mod_apply, if_neg hb],
      div_mul_add_mod_modEq a b, abs_toInt_mod_lt hb, sign_toInt_mod a b, ?_⟩
    have hquotient := toInt_div_eq a b
    split_ifs at hquotient ⊢ with h
    · exact ⟨hquotient, by rw [h.1, h.2, mod_minValue_neg_one]⟩
    · exact hquotient

end BinaryOp
end StackEffect
