import Mathlib.Tactic.IntervalCases
import StackEffect.Proofs.Cursor.Lexing

/-!
Words that are read as integers. Digits denote a number by their places (`Numeral`), and an integer
is written with a minus sign or none and digits, decimal ones or hexadecimal ones behind `0x`
(`Magnitude`, `Negatable`). Every such word whose number fits into 32 bits is read as this number.
Besides these, hexadecimal digits are read with a sign of their own behind `0x` (`InnerSigned`), which
decimal ones may not have; nothing else is read as an integer (`reads_int_iff`).
-/
namespace StackEffect
open Cursor

/-! ### Digits and what they denote -/

/-- The number that a digit of a base stands for; the letters may be small or capital. -/
def IsDigit (base : Nat) (c : Char) (d : Nat) : Prop :=
  d < base ∧ ("0123456789abcdef".toList[d]? = some c ∨ "0123456789ABCDEF".toList[d]? = some c)

instance (base : Nat) (c : Char) (d : Nat) : Decidable (IsDigit base c d) :=
  inferInstanceAs (Decidable (_ ∧ _))

/-- One or more digits, with the number that they denote by their places. -/
inductive Numeral (base : Nat) : List Char → Nat → Prop
  | digit {c : Char} {d : Nat} : IsDigit base c d → Numeral base [c] d
  | snoc {cs : List Char} {c : Char} {n d : Nat} : Numeral base cs n → IsDigit base c d →
      Numeral base (cs ++ [c]) (base * n + d)

/-- Digits as they stand in a text without a sign. -/
inductive Magnitude : List Char → Int → Prop
  | decimal {cs : List Char} {n : Nat} : Numeral 10 cs n → Magnitude cs n
  | hex {x : Char} {cs : List Char} {n : Nat} : x = 'x' ∨ x = 'X' → Numeral 16 cs n →
      Magnitude ('0' :: x :: cs) n

/-- Hexadecimal digits that have a sign of their own, behind `0x`. -/
inductive InnerSigned : List Char → Int → Prop
  | plus {x : Char} {cs : List Char} {n : Nat} : x = 'x' ∨ x = 'X' → Numeral 16 cs n →
      InnerSigned ('0' :: x :: '+' :: cs) n
  | minus {x : Char} {cs : List Char} {n : Nat} : x = 'x' ∨ x = 'X' → Numeral 16 cs n →
      InnerSigned ('0' :: x :: '-' :: cs) (-n)

/-- A minus sign or none in front of what is written without one. -/
inductive Negatable (Unsigned : List Char → Int → Prop) : List Char → Int → Prop
  | plain {cs : List Char} {n : Int} : Unsigned cs n → Negatable Unsigned cs n
  | minus {cs : List Char} {n : Int} : Unsigned cs n → Negatable Unsigned ('-' :: cs) (-n)

variable {base n d : Nat} {c : Char} {cs : List Char}

theorem IsDigit.lt_sixteen (h : IsDigit base c d) : d < 16 := by
  obtain ⟨-, h | h⟩ := h <;> exact (List.getElem?_eq_some_iff.mp h).1

theorem IsDigit.mem (h : IsDigit base c d) : c ∈ "0123456789abcdefABCDEF".toList := by
  have hlt := h.lt_sixteen
  obtain ⟨-, h | h⟩ := h <;> interval_cases d <;> cases h <;> decide

theorem Numeral.ne_nil (h : Numeral base cs n) : cs ≠ [] := by
  cases h <;> simp

theorem Numeral.isDigit_of_mem (h : Numeral base cs n) (hc : c ∈ cs) : ∃ d, IsDigit base c d := by
  induction h with
  | digit hdigit =>
    obtain rfl := List.mem_singleton.mp hc
    exact ⟨_, hdigit⟩
  | snoc hinit hdigit ih =>
    rcases List.mem_append.mp hc with hc | hc
    · exact ih hc
    · obtain rfl := List.mem_singleton.mp hc
      exact ⟨_, hdigit⟩

theorem Numeral.head_ne (h : Numeral base (c :: cs) n) : c ≠ '-' ∧ c ≠ '+' := by
  obtain ⟨d, hdigit⟩ := h.isDigit_of_mem List.mem_cons_self
  have hmem := hdigit.mem
  constructor <;> rintro rfl <;> revert hmem <;> decide

theorem numeral_singleton_iff : Numeral base [c] n ↔ IsDigit base c n := by
  refine ⟨fun h => ?_, .digit⟩
  generalize hcs : [c] = cs at h
  cases h with
  | digit hdigit =>
    cases hcs
    exact hdigit
  | snoc hinit hdigit =>
    exact absurd (List.append_eq_singleton_iff.mp hcs.symm) (by simp [hinit.ne_nil])

theorem numeral_snoc_iff (hcs : cs ≠ []) :
    Numeral base (cs ++ [c]) n ↔
      ∃ m d, Numeral base cs m ∧ IsDigit base c d ∧ n = base * m + d := by
  refine ⟨fun h => ?_, ?_⟩
  · generalize hall : cs ++ [c] = all at h
    cases h with
    | digit hdigit => exact absurd (List.append_eq_singleton_iff.mp hall) (by simp [hcs])
    | snoc hinit hdigit =>
      obtain ⟨rfl, hc⟩ := List.append_inj' hall rfl
      cases hc
      exact ⟨_, _, hinit, hdigit, rfl⟩
  · rintro ⟨m, d, hinit, hdigit, rfl⟩
    exact .snoc hinit hdigit

/-! ### Reading digits -/

theorem isDigit_ten_iff : IsDigit 10 c d ↔ c.isDigit = true ∧ c.toNat - '0'.toNat = d := by
  rw [Char.isDigit_iff_toNat]
  constructor
  · rintro ⟨hd, h | h⟩ <;> interval_cases d <;> cases h <;> decide
  · rintro ⟨⟨hlow, hhigh⟩, rfl⟩
    rw [← Char.ofNat_toNat c]
    generalize c.toNat = k at *
    simp only [Char.reduceToNat] at hlow hhigh
    interval_cases k <;> decide

theorem hexDigit?_eq_some_iff : hexDigit? c = some d ↔ IsDigit 16 c d := by
  constructor
  · intro h
    have hrange : (48 ≤ c.toNat ∧ c.toNat ≤ 57) ∨ (97 ≤ c.toNat ∧ c.toNat ≤ 102) ∨
        (65 ≤ c.toNat ∧ c.toNat ≤ 70) := by
      unfold hexDigit? at h
      split_ifs at h with hdigit hsmall hcapital
      · exact .inl (Char.isDigit_iff_toNat.mp hdigit)
      · exact .inr (.inl hsmall)
      · exact .inr (.inr hcapital)
    rw [← Char.ofNat_toNat c] at h ⊢
    generalize c.toNat = k at *
    rcases hrange with ⟨hlow, hhigh⟩ | ⟨hlow, hhigh⟩ | ⟨hlow, hhigh⟩ <;>
      interval_cases k <;> cases h <;> decide
  · rintro ⟨hd, h | h⟩ <;> interval_cases d <;> cases h <;> decide

theorem digitsValue_eq_iff :
    (cs ≠ [] ∧ cs.all Char.isDigit = true ∧ Binary32.digitsValue cs = n) ↔ Numeral 10 cs n := by
  induction cs using List.reverseRecOn generalizing n with
  | nil => exact ⟨fun h => absurd rfl h.1, fun h => absurd rfl h.ne_nil⟩
  | append_singleton cs c ih =>
    have hvalue : Binary32.digitsValue (cs ++ [c]) =
        10 * Binary32.digitsValue cs + (c.toNat - '0'.toNat) := by
      simp [Binary32.digitsValue, Nat.ofDigitChars_append, Nat.ofDigitChars_cons]
    by_cases hcs : cs = []
    · subst hcs
      rw [List.nil_append, numeral_singleton_iff, isDigit_ten_iff]
      simp [Binary32.digitsValue, Nat.ofDigitChars_cons]
    · rw [numeral_snoc_iff hcs, hvalue]
      simp only [isDigit_ten_iff, ← ih, List.all_append, List.all_cons, List.all_nil,
        Bool.and_true, Bool.and_eq_true]
      constructor
      · rintro ⟨-, ⟨hall, hc⟩, rfl⟩
        exact ⟨_, _, ⟨hcs, hall, rfl⟩, ⟨hc, rfl⟩, rfl⟩
      · rintro ⟨m, d, ⟨-, hall, rfl⟩, ⟨hc, rfl⟩, rfl⟩
        exact ⟨by simp, ⟨hall, hc⟩, rfl⟩

theorem ofHex?_snoc (hcs : cs ≠ []) :
    ofHex? (cs ++ [c]) = (ofHex? cs).bind fun m => (hexDigit? c).map (16 * m + ·) := by
  obtain ⟨x, xs, rfl⟩ := List.exists_cons_of_ne_nil hcs
  have hunfold : ∀ ys : List Char, ofHex? (x :: ys) =
      (x :: ys).foldlM (fun n c => (hexDigit? c).map (16 * n + ·)) 0 := fun _ => rfl
  rw [List.cons_append, hunfold, hunfold, ← List.cons_append, List.foldlM_append]
  simp [Option.bind_eq_bind]

theorem ofHex?_eq_some_iff : ofHex? cs = some n ↔ Numeral 16 cs n := by
  induction cs using List.reverseRecOn generalizing n with
  | nil => exact ⟨nofun, fun h => absurd rfl h.ne_nil⟩
  | append_singleton cs c ih =>
    by_cases hcs : cs = []
    · subst hcs
      rw [List.nil_append, numeral_singleton_iff, ← hexDigit?_eq_some_iff]
      simp [ofHex?]
    · rw [ofHex?_snoc hcs, numeral_snoc_iff hcs]
      simp only [Option.bind_eq_some_iff, Option.map_eq_some_iff, ih, hexDigit?_eq_some_iff]
      constructor
      · rintro ⟨m, hm, d, hd, rfl⟩
        exact ⟨m, d, hm, hd, rfl⟩
      · rintro ⟨m, d, hm, hd, rfl⟩
        exact ⟨m, hm, d, hd, rfl⟩

/-! ### Reading integers -/

theorem hexInteger?_eq (cs : List Char) : hexInteger? cs =
    (ofHex? (Binary32.splitSign cs).2).map fun n : Nat =>
      if (Binary32.splitSign cs).1 then -(n : Int) else n := by
  unfold hexInteger?
  cases Binary32.splitSign cs with
  | mk negative digits => cases hdigits : ofHex? digits <;> simp [hdigits]

theorem splitSign_cases (cs : List Char) :
    (∃ ds, cs = '-' :: ds ∧ Binary32.splitSign cs = (true, ds)) ∨
      (∃ ds, cs = '+' :: ds ∧ Binary32.splitSign cs = (false, ds)) ∨
        Binary32.splitSign cs = (false, cs) := by
  unfold Binary32.splitSign
  split <;> simp

/-- What stands behind `0x` is digits, or a sign and digits. -/
theorem hexInteger?_eq_some_iff {x : Char} {k : Int} (hx : x = 'x' ∨ x = 'X') :
    hexInteger? cs = some k ↔ Magnitude ('0' :: x :: cs) k ∨ InnerSigned ('0' :: x :: cs) k := by
  rw [hexInteger?_eq, Option.map_eq_some_iff]
  simp only [ofHex?_eq_some_iff]
  constructor
  · rintro ⟨n, hn, rfl⟩
    rcases splitSign_cases cs with ⟨ds, rfl, hsplit⟩ | ⟨ds, rfl, hsplit⟩ | hsplit <;>
      rw [hsplit] at hn ⊢
    · exact .inr (.minus hx hn)
    · exact .inr (.plus hx hn)
    · exact .inl (.hex hx hn)
  · rintro (h | h)
    · cases h with
      | decimal hn =>
        obtain ⟨d, hdigit⟩ := hn.isDigit_of_mem (c := x) (by simp)
        rcases hx with rfl | rfl <;> exact absurd (isDigit_ten_iff.mp hdigit).1 (by decide)
      | hex _ hn =>
        rcases splitSign_cases cs with ⟨ds, rfl, -⟩ | ⟨ds, rfl, -⟩ | hsplit
        · exact absurd rfl hn.head_ne.1
        · exact absurd rfl hn.head_ne.2
        · rw [hsplit]
          exact ⟨_, hn, rfl⟩
    · cases h with
      | plus _ hn => exact ⟨_, hn, rfl⟩
      | minus _ hn => exact ⟨_, hn, rfl⟩

theorem unsignedInteger?_eq_some_iff {k : Int} :
    unsignedInteger? cs = some k ↔ Magnitude cs k ∨ InnerSigned cs k := by
  unfold unsignedInteger?
  split
  · exact hexInteger?_eq_some_iff (.inl rfl)
  · exact hexInteger?_eq_some_iff (.inr rfl)
  · rename_i hsmall hcapital
    constructor
    · intro h
      split_ifs at h with hdigits
      cases h
      exact .inl (.decimal (digitsValue_eq_iff.mp ⟨hdigits.1, hdigits.2, rfl⟩))
    · rintro (h | h)
      · cases h with
        | decimal hn =>
          obtain ⟨hne, hall, rfl⟩ := digitsValue_eq_iff.mpr hn
          rw [if_pos ⟨hne, hall⟩]
        | @hex x ds _ hx _ => rcases hx with rfl | rfl <;> simp at hsmall hcapital
      · cases h with
        | @plus x ds _ hx _ => rcases hx with rfl | rfl <;> simp at hsmall hcapital
        | @minus x ds _ hx _ => rcases hx with rfl | rfl <;> simp at hsmall hcapital

theorem not_magnitude_minus {k : Int} : ¬ Magnitude ('-' :: cs) k := by
  intro h
  cases h with
  | decimal hn => exact hn.head_ne.1 rfl

theorem negatable_minus_iff {Unsigned : List Char → Int → Prop} {k : Int}
    (h : ¬ Unsigned ('-' :: cs) k) : Negatable Unsigned ('-' :: cs) k ↔ Unsigned cs (-k) := by
  constructor
  · intro hsigned
    cases hsigned with
    | plain hk => exact absurd hk h
    | minus hk => rwa [Int.neg_neg]
  · intro hk
    rw [← Int.neg_neg k]
    exact .minus hk

theorem negatable_iff {Unsigned : List Char → Int → Prop} {k : Int}
    (h : ∀ rest, cs ≠ '-' :: rest) : Negatable Unsigned cs k ↔ Unsigned cs k := by
  refine ⟨fun hsigned => ?_, .plain⟩
  cases hsigned with
  | plain hk => exact hk
  | minus => exact absurd rfl (h _)

theorem fits_iff {k : Int} {n : Int32} :
    (if Int32.minValue.toInt ≤ k ∧ k ≤ Int32.maxValue.toInt then some (Int32.ofInt k) else none) =
      some n ↔ k = n.toInt := by
  constructor
  · intro h
    split_ifs at h with hk
    cases h
    exact (Int32.toInt_ofInt_of_le hk.1 (Int.lt_add_one_of_le hk.2)).symm
  · rintro rfl
    rw [if_pos ⟨n.minValue_le_toInt, n.toInt_le⟩, Int32.ofInt_toInt]

/-- A word is read as an integer of 32 bits if it is written as one, or with its sign behind
`0x`. -/
theorem integer?_eq_some_iff {n : Int32} : integer? cs = some n ↔
    Negatable Magnitude cs n.toInt ∨ Negatable InnerSigned cs n.toInt := by
  unfold integer?
  dsimp only
  rw [Option.bind_eq_some_iff]
  simp only [fits_iff, exists_eq_right]
  split
  · rename_i rest
    rw [negatable_minus_iff not_magnitude_minus, negatable_minus_iff nofun,
      ← unsignedInteger?_eq_some_iff, Option.map_eq_some_iff]
    exact ⟨fun ⟨k, hk, hn⟩ => hn ▸ by rwa [Int.neg_neg], fun hk => ⟨_, hk, Int.neg_neg _⟩⟩
  · rename_i hsign
    rw [negatable_iff hsign, negatable_iff hsign, unsignedInteger?_eq_some_iff]

theorem number?_eq_int_iff {n : Int32} : number? cs = some (.int n) ↔ integer? cs = some n := by
  unfold number?
  cases integer? cs <;> simp

/-! ### Reading a word -/

theorem integer?_quote (cs : List Char) : integer? ('"' :: cs) = none := by
  simp [integer?, unsignedInteger?, Char.isDigit]

theorem integer?_of_opensComment (h : opensComment cs = true) : integer? cs = none := by
  simp only [opensComment, brackets, Bool.or_eq_true, decide_eq_true_eq, List.any_cons,
    List.any_nil, Bool.or_false] at h
  rcases h with rfl | rfl | rfl <;> rfl

namespace Cursor

/-- A token that is read stands for an integer if its text is written as one. -/
theorem literal_eq_int_iff {c after : Cursor} {t : Token} {n : Int32}
    (h : c.next = .ok (some (t, after))) : t.literal = some (.int n) ↔
      Negatable Magnitude t.text.toList n.toInt ∨ Negatable InnerSigned t.text.toList n.toInt := by
  rw [← integer?_eq_some_iff, ← number?_eq_int_iff]
  have hstop := h ▸ stop_next c
  cases hstop with
  | token hc hgap hspells hplace =>
    cases hspells with
    | word => rw [String.toList_ofList]
    | string =>
      rw [number?_eq_int_iff, String.toList_append, String.toList_append]
      exact ⟨nofun, fun hn => absurd hn (by simp [integer?_quote])⟩

/-- A word, wherever it stands in a text, is read as an integer if it is written as one whose number
fits into 32 bits, or if it is so but for a sign behind `0x`. -/
theorem reads_int_iff {c : Cursor} {blanks word rest : List Char} {n : Int32}
    (h : FirstWord c.rest blanks word rest) (hquote : word.head? ≠ some '"') :
    (∃ t after, c.next = .ok (some (t, after)) ∧ t.text.toList = word ∧
        t.literal = some (.int n)) ↔
      Negatable Magnitude word n.toInt ∨ Negatable InnerSigned word n.toInt := by
  constructor
  · rintro ⟨t, after, hnext, rfl, hliteral⟩
    exact (literal_eq_int_iff hnext).mp hliteral
  · intro hn
    have hinteger := integer?_eq_some_iff.mpr hn
    have hopens : opensComment word = false := by
      by_contra hopens
      rw [integer?_of_opensComment (by simpa using hopens)] at hinteger
      cases hinteger
    have hnext := next_of_firstWord h hquote
    rw [afterComment?_of_not_opensComment hopens, number?_eq_int_iff.mpr hinteger] at hnext
    exact ⟨_, _, hnext, String.toList_ofList, rfl⟩

theorem reads_int_iff_hexadecimal :
    FirstWord (ofText " -0x1F dup").rest [' '] "-0x1F".toList " dup".toList ∧
      "-0x1F".toList.head? ≠ some '"' ∧
      ∃ t after, (ofText " -0x1F dup").next = .ok (some (t, after)) ∧
        t.text.toList = "-0x1F".toList ∧ t.literal = some (.int (-31)) := by
  have hfirst : FirstWord (ofText " -0x1F dup").rest [' '] "-0x1F".toList " dup".toList :=
    ⟨rfl, List.all_eq_true.mp rfl, by decide, List.all_eq_true.mp rfl, .cons rfl _⟩
  have hfront : Numeral 16 ['1'] 1 := .digit (by decide)
  have hdigits : Numeral 16 ['1', 'F'] (16 * 1 + 15) := hfront.snoc (by decide)
  exact ⟨hfirst, by decide, (reads_int_iff hfirst (by decide)).mpr
    (.inl (.minus (Magnitude.hex (.inl rfl) hdigits)))⟩

/-- A minus sign behind `0x` makes a word an integer that is not written as one. -/
theorem reads_int_inner_sign :
    (∃ t after, (ofText "0x-5").next = .ok (some (t, after)) ∧ t.text = "0x-5" ∧
        t.literal = some (.int (-5))) ∧
      ∀ k, ¬ Negatable Magnitude "0x-5".toList k := by
  refine ⟨⟨⟨"0x-5", some (.int (-5)), {}⟩, ⟨[], ⟨1, 5⟩, 1⟩, by decide +kernel, rfl, rfl⟩,
    fun k hk => ?_⟩
  rw [negatable_iff (by simp)] at hk
  cases hk with
  | decimal hn =>
    obtain ⟨d, hdigit⟩ := hn.isDigit_of_mem (c := 'x') (by decide)
    exact absurd (isDigit_ten_iff.mp hdigit).1 (by decide)
  | hex _ hn => exact hn.head_ne.1 rfl

end Cursor
end StackEffect
