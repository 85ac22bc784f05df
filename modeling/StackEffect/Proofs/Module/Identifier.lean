import StackEffect.Proofs.Cursor.Stream
import StackEffect.Proofs.Module.Mangling

/-!
Symbols that need no quotes. A global name is read without quotes if it starts with a letter or one of
the signs `$`, `.` and `_` and goes on with these and with digits (`IsIdentifier`). The symbol for a
name has no other characters, and a sign takes the place of each character that is no letter or digit,
so that all that can be amiss is a digit in front of the name (`isIdentifier_symbol_iff`).
-/
namespace StackEffect

/-- A global name may start with this character: `[A-Za-z$._]`. -/
def IsNameStart (c : Char) : Prop :=
  ('A' ≤ c ∧ c ≤ 'Z') ∨ ('a' ≤ c ∧ c ≤ 'z') ∨ c = '$' ∨ c = '.' ∨ c = '_'

/-- A global name may go on with this character: `[A-Za-z0-9$._]`. -/
def IsNamePart (c : Char) : Prop := IsNameStart c ∨ ('0' ≤ c ∧ c ≤ '9')

/-- A global name that is read without quotes: `[A-Za-z$._][A-Za-z0-9$._]*`. -/
def IsIdentifier (name : String) : Prop :=
  ∃ c rest, name.toList = c :: rest ∧ IsNameStart c ∧ ∀ x ∈ rest, IsNamePart x

def StartsWithDigit (name : String) : Prop := ∃ c ∈ name.toList.head?, c.isDigit = true

/-- The name that a phrase gives to a word. -/
def Phrase.given? : Phrase → Option String
  | definition name .. | declaration name .. => some name
  | see _ | token _ => none

/-! ### Characters -/

theorem isDigit_iff {c : Char} : c.isDigit = true ↔ '0' ≤ c ∧ c ≤ '9' := by
  simp [Char.isDigit, Char.le_def]

theorem isAlpha_iff {c : Char} :
    c.isAlpha = true ↔ ('A' ≤ c ∧ c ≤ 'Z') ∨ ('a' ≤ c ∧ c ≤ 'z') := by
  unfold Char.isAlpha Char.isUpper Char.isLower
  simp [Char.le_def]

theorem isNamePart_iff {c : Char} : IsNamePart c ↔ isSymbolChar c = true := by
  simp only [IsNamePart, IsNameStart, isSymbolChar, Char.isAlphanum, Bool.or_eq_true,
    decide_eq_true_eq, isAlpha_iff, isDigit_iff]
  tauto

theorem not_isNameStart_of_isDigit {c : Char} (h : c.isDigit = true) : ¬ IsNameStart c := by
  rw [isDigit_iff] at h
  rintro (hupper | hlower | rfl | rfl | rfl)
  · exact absurd (Char.le_trans hupper.1 h.2) (by decide)
  · exact absurd (Char.le_trans hlower.1 h.2) (by decide)
  all_goals exact absurd h (by decide)

theorem isNameStart_iff {c : Char} :
    IsNameStart c ↔ isSymbolChar c = true ∧ ¬ c.isDigit = true := by
  constructor
  · intro h
    exact ⟨isNamePart_iff.mp (.inl h), fun hdigit => not_isNameStart_of_isDigit hdigit h⟩
  · rintro ⟨hpart, hdigit⟩
    exact (isNamePart_iff.mpr hpart).resolve_right fun h => hdigit (isDigit_iff.mpr h)

/-- A plain symbol is an identifier unless it is empty or starts with a digit. -/
theorem isIdentifier_iff {name : String} :
    IsIdentifier name ↔ IsPlain name ∧ name.toList ≠ [] ∧ ¬ StartsWithDigit name := by
  unfold IsIdentifier IsPlain StartsWithDigit
  cases name.toList with
  | nil => simp
  | cons c rest =>
    simp [isNameStart_iff, isNamePart_iff]
    tauto

/-! ### Spelling -/

theorem mangledChar_cases (c : Char) :
    mangledChar c = [c] ∧ isSymbolChar c = true ∨
      ∃ rest, mangledChar c = '_' :: rest ∧ ¬ isSymbolChar c = true := by
  have hspelled : ∀ x ∈ spelledPunctuation, x.2.toList.head? = some '_' := by decide
  unfold mangledChar
  by_cases hc : isSymbolChar c = true
  · exact .inl ⟨if_pos hc, hc⟩
  · rw [if_neg hc]
    refine .inr ?_
    cases hlookup : spelledPunctuation.lookup c with
    | none => exact ⟨_, rfl, hc⟩
    | some spelling =>
      obtain ⟨before, after, heq, -⟩ := List.lookup_eq_some_iff.mp hlookup
      have hhead := hspelled (c, spelling) (heq ▸ List.mem_append_right _ List.mem_cons_self)
      exact ⟨_, List.eq_cons_of_mem_head? hhead, hc⟩

theorem head?_mangled (name : String) : (mangled name).toList.head? =
    name.toList.head?.map fun c => if isSymbolChar c then c else '_' := by
  rw [mangled, String.toList_ofList]
  cases name.toList with
  | nil => rfl
  | cons c rest =>
    rw [List.flatMap_cons]
    rcases mangledChar_cases c with ⟨heq, hc⟩ | ⟨tail, heq, hc⟩ <;> simp [heq, hc]

theorem startsWithDigit_mangled (name : String) :
    StartsWithDigit (mangled name) ↔ StartsWithDigit name := by
  unfold StartsWithDigit
  rw [head?_mangled]
  cases name.toList.head? with
  | none => simp
  | some c =>
    by_cases hc : isSymbolChar c = true
    · simp [hc]
    · have hdigit : ¬ c.isDigit = true := by
        intro h
        simp [isSymbolChar, Char.isAlphanum, h] at hc
      simp [hc, hdigit]

theorem toList_numbered (base : String) (n : Nat) :
    ∃ suffix, (numbered base n).toList = base.toList ++ suffix := by
  cases n with
  | zero => exact ⟨[], (List.append_nil _).symm⟩
  | succ n => exact ⟨_, toList_numbered_succ base n⟩

/-- With a number behind it or none, the symbol for a name is plain and starts as the name does. -/
theorem isIdentifier_numbered_iff {name : String} (hname : name.toList ≠ []) (n : Nat) :
    (numbered (mangled name) n).toList ≠ [] ∧
      (∀ c ∈ (numbered (mangled name) n).toList, IsNamePart c) ∧
      (IsIdentifier (numbered (mangled name) n) ↔ ¬ StartsWithDigit name) := by
  have hplain := isPlain_numbered (isPlain_mangled name) n
  have hbase : (mangled name).toList ≠ [] := by
    intro hnil
    have hhead := head?_mangled name
    rw [hnil, List.head?_nil, eq_comm, Option.map_eq_none_iff, List.head?_eq_none_iff] at hhead
    exact hname hhead
  obtain ⟨suffix, hsuffix⟩ := toList_numbered (mangled name) n
  have hne : (numbered (mangled name) n).toList ≠ [] := by
    rw [hsuffix]
    exact List.append_ne_nil_of_left_ne_nil hbase suffix
  have hdigit : StartsWithDigit (numbered (mangled name) n) ↔ StartsWithDigit name := by
    rw [← startsWithDigit_mangled name, StartsWithDigit, StartsWithDigit, hsuffix,
      List.head?_append_of_ne_nil _ hbase]
  exact ⟨hne, fun c hc => isNamePart_iff.mpr (hplain c hc),
    by rw [isIdentifier_iff, hdigit, and_iff_right hplain, and_iff_right hne]⟩

/-! ### Names that a text can give -/

namespace Cursor
variable {c rest : Cursor} {sees : Token → Bool} {p : Phrase} {name : String}

theorem text_ne_nil_of_next {t : Token} (h : c.next = .ok (some (t, rest))) :
    t.text.toList ≠ [] := by
  have hstop := stop_next c
  rw [h] at hstop
  cases hstop with
  | token hc hgap hspells hplace =>
    cases hspells with
    | word hne => rwa [String.toList_ofList]
    | string => simp

theorem given_ne_nil (h : c.nextPhrase sees = .ok (some (p, rest))) (hp : p.given? = some name) :
    name.toList ≠ [] := by
  cases reads_of_nextPhrase h with
  | definition hcolon hword hname hbody =>
    cases hp
    exact text_ne_nil_of_next hname
  | unended hcolon hword hname hbody =>
    cases hp
    exact text_ne_nil_of_next hname
  | declaration hfirst hcolon hexternal hname hbracket htext hletters =>
    cases hp
    obtain ⟨blanks, word, hfirst, htext, -⟩ := exists_firstWord_of_nextWord hname
    rw [htext]
    exact hfirst.nonempty
  | see => cases hp
  | token => cases hp

end Cursor

/-- A name that a definition or a declaration can give to a word, whatever text the name is, has a
symbol that is not empty and consists of letters, digits and the signs `$`, `.` and `_`, with any
number behind it or with none; and each function that is declared for the name gets such a symbol. The
symbol is an identifier just when the name does not start with a digit. -/
theorem isIdentifier_symbol_iff {c rest : Cursor} {sees : Token → Bool} {p : Phrase} {name : String}
    (h : c.nextPhrase sees = .ok (some (p, rest))) (hp : p.given? = some name) :
    (∀ n, (numbered (mangled name) n).toList ≠ [] ∧
      (∀ c ∈ (numbered (mangled name) n).toList, IsNamePart c) ∧
      (IsIdentifier (numbered (mangled name) n) ↔ ¬ StartsWithDigit name)) ∧
    ∀ signature m f m', IRModule.declare name name signature m = .ok f m' →
      (∃ n, f.symbol = numbered (mangled name) n) ∧
        (IsIdentifier f.symbol ↔ ¬ StartsWithDigit name) := by
  have hname := Cursor.given_ne_nil h hp
  refine ⟨isIdentifier_numbered_iff hname, fun signature m f m' hd => ?_⟩
  obtain ⟨n, hn⟩ := IRModule.exists_numbered_of_declare name hd
  exact ⟨⟨n, hn⟩, hn ▸ (isIdentifier_numbered_iff hname n).2.2⟩

def accented : String := ": é-2 2 + ;"

theorem isIdentifier_symbol_iff_accented : ∃ body rest,
    (Cursor.ofText accented).nextPhrase (fun _ => false) =
      .ok (some (.definition "é-2" body none, rest)) ∧
    mangled "é-2" = "_xE9__2" ∧ ∀ n, IsIdentifier (numbered (mangled "é-2") n) := by
  have hphrase : (Cursor.ofText accented).nextPhrase (fun _ => false) =
      .ok (some (.definition "é-2" [⟨"2", some (.int 2), ⟨1, 7⟩⟩, ⟨"+", none, ⟨1, 9⟩⟩] none,
        ⟨[], ⟨1, 12⟩, 5⟩)) := by decide +kernel
  have hletter : ¬ StartsWithDigit "é-2" := by
    rintro ⟨c, hc, hdigit⟩
    cases hc
    exact absurd hdigit (by decide)
  exact ⟨_, _, hphrase, by decide +kernel,
    fun n => ((isIdentifier_symbol_iff hphrase rfl).1 n).2.2.mpr hletter⟩

/-- The name of a word that doubles starts with a digit, and so does its symbol. -/
theorem not_isIdentifier_of_digit : ∃ body rest,
    (Cursor.ofText ": 2* 2 * ;").nextPhrase (fun _ => false) =
      .ok (some (.definition "2*" body none, rest)) ∧
    mangled "2*" = "2_STAR_" ∧ ¬ IsIdentifier "2_STAR_" := by
  have hphrase : (Cursor.ofText ": 2* 2 * ;").nextPhrase (fun _ => false) =
      .ok (some (.definition "2*" [⟨"2", some (.int 2), ⟨1, 6⟩⟩, ⟨"*", none, ⟨1, 8⟩⟩] none,
        ⟨[], ⟨1, 11⟩, 5⟩)) := by decide +kernel
  refine ⟨_, _, hphrase, by decide +kernel, fun h => ?_⟩
  exact (isIdentifier_iff.mp h).2.2 ⟨'2', rfl, rfl⟩

end StackEffect
