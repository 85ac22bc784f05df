import Mathlib
import StackEffect.Binary32

/-!
Binary32 numbers among the binary64 numbers. The binary64 number that is equal to one of them
(`doubleBits`) tells which one it is (`ofDoubleBits_doubleBits`): a mantissa that has been shifted to
the left is shifted back without a loss.
-/
namespace StackEffect.Binary32
open Float.Model (Format UnpackedFloat totalExponent)
open Float.Model.UnpackedFloat (ExtendedMantissa)

/-- The binary32 number nearest to the binary64 number with these bits. -/
def ofDoubleBits (bits : Nat) : Float32 :=
  ofUnpacked <| match UnpackedFloat.unpack Format.binary64 (BitVec.ofNat 64 bits) with
    | .finite s m e _ => UnpackedFloat.round Format.binary32 s m e
    | u => u

/-! ### Rounding without a loss -/

/-- The exponent is the one that the format has for the number. -/
def Canonical (spec : Format) (m : Nat) (e : Int) : Prop :=
  spec.targetExponent (totalExponent m e) = e

section Rounding
variable {spec : Format} {m : Nat} {e : Int}

theorem log2_shift (hm : 0 < m) (k : Nat) : (m * 2 ^ k).log2 = m.log2 + k := by
  have hne : m * 2 ^ k ≠ 0 := Nat.mul_ne_zero hm.ne' (by positivity)
  rw [Nat.log2_eq_iff hne]
  obtain ⟨hlow, hhigh⟩ := (Nat.log2_eq_iff hm.ne').mp rfl
  constructor
  · rw [pow_add]
    exact Nat.mul_le_mul_right _ hlow
  · rw [Nat.add_right_comm, pow_add]
    exact Nat.mul_lt_mul_of_pos_right hhigh (by positivity)

theorem totalExponent_shift (hm : 0 < m) (k : Nat) :
    totalExponent (m * 2 ^ k) (e - k) = totalExponent m e := by
  rw [totalExponent, totalExponent, log2_shift hm]
  push_cast
  omega

theorem shiftRight_exact (m k : Nat) :
    (⟨m * 2 ^ k, false, false⟩ : ExtendedMantissa) >>> k = ⟨m, false, false⟩ := by
  have hrepeat (j : Nat) : k.repeat ExtendedMantissa.shiftRightOne ⟨m * 2 ^ (j + k), false, false⟩ =
      ⟨m * 2 ^ j, false, false⟩ := by
    induction k generalizing j with
    | zero => rfl
    | succ k ih =>
      have heven : m * 2 ^ (j + 1) = 2 * (m * 2 ^ j) := by ring
      rw [Nat.repeat, show j + (k + 1) = j + 1 + k by omega, ih (j + 1), heven]
      simp [ExtendedMantissa.shiftRightOne]
  have hzero := hrepeat 0
  rw [Nat.zero_add, Nat.pow_zero, Nat.mul_one] at hzero
  exact hzero

theorem shiftToTargetExponent_exact (hm : 0 < m) (h : Canonical spec m e) (k : Nat) :
    UnpackedFloat.shiftToTargetExponent spec (m * 2 ^ k) (e - k) .exact =
      (⟨m, false, false⟩, e) := by
  have hamount : (e - (e - k)).toNat = k := by omega
  rw [UnpackedFloat.shiftToTargetExponent, totalExponent_shift hm, h, UnpackedFloat.shiftToExponent,
    hamount, ExtendedMantissa.ofMantissaAndAccuracy]
  simp only [shiftRight_exact, Int.sub_add_cancel]

theorem roundWithAccuracy_exact (s) (hm : 0 < m) (h : Canonical spec m e) (k : Nat) :
    UnpackedFloat.roundWithAccuracy spec s (m * 2 ^ k) (e - k) .exact = .finite s m e hm := by
  have hagain := shiftToTargetExponent_exact hm h 0
  rw [Nat.pow_zero, Nat.mul_one, Int.ofNat_zero, Int.sub_zero] at hagain
  have hrounded : ExtendedMantissa.roundedMantissa ⟨m, false, false⟩ = m := rfl
  simp only [UnpackedFloat.roundWithAccuracy, shiftToTargetExponent_exact hm h, hrounded, hagain,
    dif_neg hm.ne']

theorem round_shifted (s) (hm : 0 < m) (h : Canonical spec m e) (k : Nat) :
    UnpackedFloat.round spec s (m * 2 ^ k) (e - k) = .finite s m e hm := by
  have hamount : (e - k - e).toNat = 0 := by omega
  rw [UnpackedFloat.round, totalExponent_shift hm, h, UnpackedFloat.decreaseExponent, hamount]
  simpa using roundWithAccuracy_exact s hm h k

/-- A number is shifted to the left where the format has a lower exponent for it. -/
theorem round_shift (s) (hm : 0 < m) (k : Nat) (h : Canonical spec (m * 2 ^ k) (e - k)) :
    UnpackedFloat.round spec s m e =
      .finite s (m * 2 ^ k) (e - k) (Nat.mul_pos hm (by positivity)) := by
  have hamount : (e - (e - k)).toNat = k := by omega
  have htarget : spec.targetExponent (totalExponent m e) = e - k :=
    (congrArg _ (totalExponent_shift hm k).symm).trans h
  have hrounded := roundWithAccuracy_exact s (Nat.mul_pos hm (by positivity)) h 0
  rw [UnpackedFloat.round, htarget, UnpackedFloat.decreaseExponent, hamount, Nat.shiftLeft_eq]
  simpa using hrounded

end Rounding

/-! ### Bits -/

theorem toNat_one_append {width : Nat} (v : BitVec width) : (1#1 ++ v).toNat = 2 ^ width + v.toNat := by
  have happend := Nat.two_pow_add_eq_or_of_lt v.isLt 1
  rw [Nat.mul_one] at happend
  rw [BitVec.toNat_append, happend]
  simp [Nat.shiftLeft_eq]

/-- The finite numbers that have been unpacked are canonical, and the binary64 numbers have room for
them. -/
theorem canonical_of_unpack {b : BitVec 32} {s} {m : Nat} {e : Int} {hm : 0 < m}
    (h : UnpackedFloat.unpack Format.binary32 b = .finite s m e hm) :
    Canonical Format.binary32 m e ∧ m.log2 ≤ 23 ∧ -149 ≤ e ∧ e ≤ 104 := by
  have htarget : ∀ t, Format.binary32.targetExponent t = max (t - 24) (-149) := fun t => rfl
  unfold UnpackedFloat.unpack at h
  extract_lets mantissa exponentVec exponent signVec sign at h
  have hmantissa : mantissa.toNat < 2 ^ 23 := mantissa.isLt
  have hexponent : exponent = exponentVec.toNat - 150 := rfl
  rw [Canonical, totalExponent, htarget]
  split_ifs at h with hlast hnan hfirst hzero
  · obtain ⟨-, rfl, rfl⟩ := UnpackedFloat.finite.inj h
    have hlog : mantissa.toNat.log2 < 23 := (Nat.log2_lt hm.ne').mpr hmantissa
    have hnone : exponentVec.toNat = 0 := congrArg BitVec.toNat hfirst
    omega
  · obtain ⟨-, rfl, rfl⟩ := UnpackedFloat.finite.inj h
    have hvalue : (1#1 ++ mantissa).toNat = 2 ^ 23 + mantissa.toNat := toNat_one_append mantissa
    have hlog : (1#1 ++ mantissa).toNat.log2 = 23 := by
      rw [Nat.log2_eq_iff hm.ne', hvalue]
      omega
    have hsmall : exponentVec.toNat < 2 ^ 8 := exponentVec.isLt
    have hnotLast : exponentVec.toNat ≠ 255 := fun hn => hlast (BitVec.eq_of_toNat_eq hn)
    have hnotFirst : exponentVec.toNat ≠ 0 := fun hn => hfirst (BitVec.eq_of_toNat_eq hn)
    omega

/-- A normal binary64 number is unpacked as it has been packed. -/
theorem unpack_pack {s} {m : Nat} {e : Int} (hm : 0 < m) (hlog : m.log2 = 52) (hlow : -1074 ≤ e)
    (hhigh : e ≤ 971) :
    UnpackedFloat.unpack Format.binary64 (UnpackedFloat.pack Format.binary64 (.finite s m e hm)) =
      .finite s m e hm := by
  obtain ⟨hmlow, hmhigh⟩ := (Nat.log2_eq_iff hm.ne').mp hlog
  have hbias : Format.binary64.exponentBias = 1023 := rfl
  let exponent := BitVec.ofNat 11 (e + 1075).toNat
  have hexponent : exponent.toNat = (e + 1075).toNat := by
    rw [BitVec.toNat_ofNat, Nat.mod_eq_of_lt (by omega)]
  have hpack : UnpackedFloat.pack Format.binary64 (.finite s m e hm) =
      UnpackedFloat.packComponents Format.binary64 s exponent (BitVec.ofNat 52 m) := by
    have hbiased : (e + Format.binary64.exponentBias + (52 : Nat)).toNat = (e + 1075).toNat := by
      rw [hbias]
      omega
    have hroom : ¬ 2 ^ 11 ≤ (e + 1075).toNat + 1 := by omega
    have hbits : m.log2 + 1 = Format.binary64.mantissaBits := congrArg (· + 1) hlog
    simp only [UnpackedFloat.pack, hbiased, if_neg hroom, if_pos hbits]
    rfl
  have hlast : exponent ≠ -1#11 := fun h => by
    have hn : exponent.toNat = 2047 := congrArg BitVec.toNat h
    omega
  have hfirst : exponent ≠ 0#11 := fun h => by
    have hn : exponent.toNat = 0 := congrArg BitVec.toNat h
    omega
  have hmantissa : (1#1 ++ BitVec.ofNat 52 m).toNat = m := by
    rw [toNat_one_append, BitVec.toNat_ofNat]
    omega
  have hvalue : ((e + 1075).toNat : Int) - (1023 + 52) = e := by omega
  rw [hpack, UnpackedFloat.unpack]
  simp only [UnpackedFloat.unpackExponent_packComponents, UnpackedFloat.unpackMantissa_packComponents,
    UnpackedFloat.unpackSign_packComponents, UnpackedFloat.Sign.ofBitVec_toBitVec, if_neg hlast,
    if_neg hfirst, hexponent, hbias]
  congr 1

/-- The binary64 number that is equal to a binary32 number tells which one it is. -/
theorem ofDoubleBits_doubleBits (x : Float32) : ofDoubleBits (doubleBits x) = x := by
  have hx : ofUnpacked x.toModel.unpack = x := Float32.ofBits_toBits x
  have hbits (b : BitVec 64) : BitVec.ofNat 64 b.toNat = b := by simp
  unfold ofDoubleBits doubleBits
  rw [hbits]
  cases hu : x.toModel.unpack with
  | notANumber =>
    rw [← hx, hu]
    rfl
  | infinity s =>
    rw [← hx, hu]
    cases s <;> rfl
  | zero s =>
    rw [← hx, hu]
    cases s <;> rfl
  | finite s m e hm =>
    obtain ⟨hcanonical, hlog, hlow, hhigh⟩ := canonical_of_unpack hu
    have hshifted : (m * 2 ^ (52 - m.log2)).log2 = 52 := by
      rw [log2_shift hm]
      omega
    have hwide : Canonical Format.binary64 (m * 2 ^ (52 - m.log2)) (e - (52 - m.log2 : Nat)) := by
      have htarget : ∀ t, Format.binary64.targetExponent t = max (t - 53) (-1074) := fun t => rfl
      rw [Canonical, totalExponent, htarget, hshifted]
      omega
    simp only [round_shift s hm _ hwide]
    rw [unpack_pack _ hshifted (by omega) (by omega)]
    simp only [round_shifted s hm hcanonical]
    rw [← hx, hu]

end StackEffect.Binary32
