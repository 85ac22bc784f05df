import StackEffect.Proofs.Module.Declaring

/-!
Symbols are spelled plainly. A name becomes a symbol of letters, digits and the signs `_`, `.` and
`$` (`isPlain_mangled`), and it stays one with a number behind it (`isPlain_numbered`), so that every
function is declared with such a symbol (`isPlain_of_declare`).
-/
namespace StackEffect

/-- The symbol needs no quotes. -/
def IsPlain (symbol : String) : Prop := ∀ c ∈ symbol.toList, isSymbolChar c = true

theorem exists_digit_of_mem_toDigits {b n : Nat} (hb : 1 < b) {c : Char} (h : c ∈ b.toDigits n) :
    ∃ d < b, c = d.digitChar := by
  induction n using Nat.strongRecOn with
  | ind n ih =>
    rw [Nat.toDigits_eq_if hb] at h
    split_ifs at h with hn
    · exact ⟨n, hn, List.mem_singleton.mp h⟩
    · rcases List.mem_append.mp h with hfirst | hlast
      · exact ih (n / b) (Nat.div_lt_self (by omega) hb) hfirst
      · exact ⟨n % b, Nat.mod_lt n (by omega), List.mem_singleton.mp hlast⟩

theorem isSymbolChar_of_mem_hexUpper {width n : Nat} {c : Char} (h : c ∈ hexUpper width n) :
    isSymbolChar c = true := by
  have hdigits : ∀ d < 16, isSymbolChar d.digitChar.toUpper = true := by decide
  rcases List.mem_append.mp h with hzero | hdigit
  · rw [(List.mem_replicate.mp hzero).2]
    rfl
  · obtain ⟨c, hc, rfl⟩ := List.mem_map.mp hdigit
    obtain ⟨d, hd, rfl⟩ := exists_digit_of_mem_toDigits (by decide) hc
    exact hdigits d hd

theorem isSymbolChar_of_mem_mangledChar {c c' : Char} (h : c' ∈ mangledChar c) :
    isSymbolChar c' = true := by
  have hspelled : ∀ x ∈ spelledPunctuation, IsPlain x.2 := by
    simp [spelledPunctuation, IsPlain, isSymbolChar]
  unfold mangledChar at h
  split_ifs at h with hc
  · rwa [List.mem_singleton.mp h]
  · cases hlookup : spelledPunctuation.lookup c with
    | some spelling =>
      rw [hlookup] at h
      obtain ⟨before, after, heq, -⟩ := List.lookup_eq_some_iff.mp hlookup
      exact hspelled (c, spelling) (heq ▸ List.mem_append_right _ List.mem_cons_self) c' h
    | none =>
      rw [hlookup] at h
      simp only [List.mem_append, List.mem_cons, List.not_mem_nil, or_false] at h
      rcases h with (⟨rfl | rfl⟩ | hhex) | rfl
      · rfl
      · rfl
      · exact isSymbolChar_of_mem_hexUpper hhex
      · rfl

theorem isPlain_mangled (name : String) : IsPlain (mangled name) := by
  intro c hc
  rw [mangled, String.toList_ofList] at hc
  obtain ⟨c', -, hc'⟩ := List.mem_flatMap.mp hc
  exact isSymbolChar_of_mem_mangledChar hc'

theorem toList_numbered_succ (base : String) (n : Nat) :
    (numbered base (n + 1)).toList = base.toList ++ '.' :: Nat.toDigits 10 (n + 1) := by
  simp [numbered, toString, Nat.repr_eq_ofList_toDigits]

theorem isPlain_numbered {base : String} (h : IsPlain base) (n : Nat) : IsPlain (numbered base n) := by
  cases n with
  | zero => exact h
  | succ n =>
    intro c hc
    rw [toList_numbered_succ, List.mem_append, List.mem_cons] at hc
    rcases hc with hbase | rfl | hdigit
    · exact h c hbase
    · rfl
    · have hc : c.isDigit = true := Nat.isDigit_of_mem_toDigits (by decide) (by decide) hdigit
      simp [isSymbolChar, Char.isAlphanum, hc]

namespace IRModule

/-- A function is declared with the symbol for its name, or with a number behind that. -/
theorem exists_numbered_of_declare (name : String) {symbol : String} {signature : Signature}
    {m m' : IRModule} {f : IRFunction} (h : declare name symbol signature m = .ok f m') :
    ∃ n, f.symbol = numbered (mangled symbol) n := by
  rw [declare_eq] at h
  split at h
  · cases h
  · cases h
  · split_ifs at h
    · cases h
      exact ⟨0, rfl⟩
    · cases h
      obtain ⟨n, hn, -⟩ := unusedSymbol_eq_numbered m.symbols (mangled symbol)
      exact ⟨n, hn⟩

theorem isPlain_of_declare (name : String) {symbol : String} {signature : Signature}
    {m m' : IRModule} {f : IRFunction} (h : declare name symbol signature m = .ok f m') :
    IsPlain f.symbol := by
  obtain ⟨n, hn⟩ := exists_numbered_of_declare name h
  exact hn ▸ isPlain_numbered (isPlain_mangled symbol) n

end IRModule
end StackEffect
