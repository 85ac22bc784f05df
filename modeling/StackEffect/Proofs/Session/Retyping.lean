import StackEffect.Proofs.Cursor.Numeral
import StackEffect.Proofs.Cursor.Rereading
import StackEffect.Proofs.Session.Halting
import StackEffect.Proofs.Session.Immediate

/-!
Integers that are printed and typed again. The text of an integer is one token, and it is read as this
integer (`tokens_intText`), down to the least one, whose digits alone do not fit into 32 bits. So a
stack of integers is built again from what is printed of it (`retyped_of_printed`).
-/
namespace StackEffect
open Cursor

/-! ### The text of an integer -/

section Text
variable {n : Int32} {c : Char}

theorem numeral_toDigits (k : Nat) : Numeral 10 (Nat.toDigits 10 k) k := by
  have hdigits : (Nat.toDigits 10 k).all Char.isDigit = true := by
    rw [List.all_eq_true]
    exact fun c hc => Nat.isDigit_of_mem_toDigits (by decide) (by decide) hc
  have hvalue : Binary32.digitsValue (Nat.toDigits 10 k) = k := Nat.ofDigitChars_ten_toDigits
  exact digitsValue_eq_iff.mp ⟨Nat.toDigits_ne_nil, hdigits, hvalue⟩

/-- The text of an integer is digits, or a minus sign and digits. -/
theorem toList_intText (n : Int32) : (Value.intText n).toList =
    if n.toInt < 0 then '-' :: Nat.toDigits 10 n.toInt.natAbs else Nat.toDigits 10 n.toInt.natAbs := by
  unfold Value.intText
  cases n.toInt with
  | ofNat k =>
    have hsign : ¬Int.ofNat k < 0 := by simp
    rw [if_neg hsign]
    exact Nat.toList_repr
  | negSucc k =>
    rw [if_pos (Int.negSucc_lt_zero k)]
    have htext : (toString (Int.negSucc k)).toList = "-".toList ++ (Nat.repr (k + 1)).toList :=
      String.toList_append
    rw [htext, Nat.toList_repr]
    rfl

theorem negatable_intText (n : Int32) : Negatable Magnitude (Value.intText n).toList n.toInt := by
  have hdigits : Magnitude (Nat.toDigits 10 n.toInt.natAbs) n.toInt.natAbs :=
    .decimal (numeral_toDigits _)
  rw [toList_intText]
  by_cases hn : n.toInt < 0
  · have habs : n.toInt = -(n.toInt.natAbs : Int) := by omega
    rw [if_pos hn, negatable_minus_iff not_magnitude_minus]
    rwa [habs, Int.neg_neg, Int.natAbs_neg, Int.natAbs_natCast]
  · have habs : (n.toInt.natAbs : Int) = n.toInt := by omega
    rw [habs] at hdigits
    rw [if_neg hn]
    exact .plain hdigits

theorem integer?_intText (n : Int32) : integer? (Value.intText n).toList = some n :=
  integer?_eq_some_iff.mpr (.inl (negatable_intText n))

theorem isInk_of_isDigit (hc : c.isDigit = true) : isInk c = true := by
  have hbounds : 48 ≤ c.toNat ∧ c.toNat ≤ 57 := by
    rwa [Char.isDigit, Bool.and_eq_true, decide_eq_true_eq, decide_eq_true_eq] at hc
  have hblank : isBlank c = false := by
    simp [isBlank, blankRanges]
    omega
  rw [isInk, hblank, Bool.not_false]

theorem ink_of_mem_intText (hc : c ∈ (Value.intText n).toList) : isInk c = true := by
  have hdigit {k : Nat} (hc : c ∈ Nat.toDigits 10 k) : isInk c = true :=
    isInk_of_isDigit (Nat.isDigit_of_mem_toDigits (by decide) (by decide) hc)
  rw [toList_intText] at hc
  split_ifs at hc
  · rcases List.mem_cons.mp hc with rfl | hc
    · decide
    · exact hdigit hc
  · exact hdigit hc

theorem spells_of_integer? {word rest : List Char} (hink : ∀ c ∈ word, isInk c = true)
    (h : integer? word = some n) (hrest : AtBreak rest) :
    Spells word ⟨String.ofList word, some (.int n), {}⟩ rest := by
  have hne : word ≠ [] := by
    rintro rfl
    cases h
  have hquote : word.head? ≠ some '"' := by
    intro hhead
    obtain ⟨cs, rfl⟩ := List.head?_eq_some_iff.mp hhead
    rw [integer?_quote] at h
    cases h
  have hopens : opensComment word = false := by
    by_contra hopens
    rw [integer?_of_opensComment (by simpa using hopens)] at h
    cases h
  rw [← number?_eq_int_iff.mpr h]
  exact .word hne hink hrest hquote hopens

def integerToken (n : Int32) : Token := ⟨Value.intText n, some (.int n), {}⟩

theorem spells_intText (n : Int32) {rest : List Char} (hrest : AtBreak rest) :
    Spells (Value.intText n).toList (integerToken n) rest := by
  have hspells := spells_of_integer? (fun _ => ink_of_mem_intText) (integer?_intText n) hrest
  rwa [String.ofList_toList] at hspells

theorem lexed_integerToken (n : Int32) : (integerToken n).Lexed :=
  ⟨_, [], spells_intText n (by simp [AtBreak])⟩

/-- The text of an integer is read as this integer, and nothing is left behind it. -/
theorem tokens_intText (n : Int32) : ∃ last, last.rest = [] ∧
    (ofText (Value.intText n)).tokens = ([integerToken n], none, last) := by
  have hnext := next_of_spells (c := ofText (Value.intText n)) (spells_intText n (by simp [AtBreak]))
    (List.append_nil _).symm rfl
  rw [tokens_eq, hnext]
  simp only
  rw [tokens_eq, next_of_nil rfl]
  exact ⟨_, rfl, rfl⟩

end Text

/-! ### Running the items of a stack -/

namespace Session
variable {T : Target} {s : Session T} {c after : Cursor} {n : Int32}

theorem runFrom_of_integer {t : Token} (hnext : c.next = .ok (some (t, after)))
    (halike : (integerToken n).Alike t) (hs : s.dictionary.lookup (Value.intText n) = none) :
    runFrom c s = runFrom after { s with stack := .int n :: s.stack } := by
  obtain ⟨htext, hliteral⟩ := halike
  have hword (text : String) : t.isWord text = false := by simp [Token.isWord, ← hliteral, integerToken]
  have hnamed : named s.dictionary t = none := by
    simp [named, isString, ← hliteral, ← htext, integerToken, hs]
  have hsees : s.seesNext t = false := by simp [seesNext, hnamed]
  have hconstant : constant t = .ok (.int n) := by simp [constant, ← hliteral, integerToken]
  have hreads : Reads s.seesNext c (.token t) after :=
    .token hnext (hword ":") (hword "extern") hsees
  rw [runFrom_of_phrase hreads.nextPhrase_eq]
  exact Action.bind_of_ok (executeToken_of_literal hnamed hconstant c.consumed) _

/-- Integers with blanks in front of them are pushed one after the other. -/
theorem runFrom_integers {ns : List Int32} (hc : c.rest = setOff (ns.map Value.intText))
    (hs : ∀ n ∈ ns, s.dictionary.lookup (Value.intText n) = none) :
    runFrom c s = .ok () { s with stack := (ns.map Value.int).reverse ++ s.stack } := by
  induction ns generalizing c s with
  | nil =>
    refine runFrom_of_end ?_
    rw [nextPhrase, next_of_nil hc]
    rfl
  | cons n ns ih =>
    obtain ⟨hn, hns⟩ := List.forall_mem_cons.mp hs
    obtain ⟨t, after, hnext, halike, hafter⟩ := next_of_setOff (lexed_integerToken n) hc
    rw [runFrom_of_integer hnext halike hn]
    have hrest := ih (s := { s with stack := .int n :: s.stack }) hafter hns
    simpa using hrest

theorem run_integers {ns : List Int32}
    (hs : ∀ n ∈ ns, s.dictionary.lookup (Value.intText n) = none) :
    run (spaced (ns.map Value.intText)) s =
      .ok () ({ s with stack := (ns.map Value.int).reverse ++ s.stack } : Session T).takeOver := by
  refine run_eq_ok.mpr ⟨_, ?_, rfl⟩
  cases ns with
  | nil => exact runFrom_integers rfl hs
  | cons n ns =>
    obtain ⟨hn, hns⟩ := List.forall_mem_cons.mp hs
    have hitems : (Cursor.ofText (spaced ((n :: ns).map Value.intText))).rest =
        [] ++ ((integerToken n).text.toList ++ setOff (ns.map Value.intText)) :=
      toList_spaced_cons ..
    obtain ⟨t, after, hnext, halike, hafter⟩ :=
      next_of_text (lexed_integerToken n) (.nil _) (atBreak_setOff _) hitems
    rw [runFrom_of_integer hnext halike hn]
    have hrest := runFrom_integers (s := { s with stack := .int n :: s.stack }) hafter hns
    simpa using hrest

/-! ### What is printed -/

theorem lookup_withBuiltins_intText (n : Int32) :
    Dictionary.withBuiltins.lookup (Value.intText n) = none := by
  by_contra hsome
  obtain ⟨⟨id, w⟩, hlookup⟩ := Option.ne_none_iff_exists'.mp hsome
  obtain ⟨hw, hname, -⟩ := Dictionary.lookup_eq_some hlookup
  obtain ⟨x, hx, rfl⟩ := Dictionary.word?_withBuiltins hw
  have hnames : ∀ x ∈ builtinWords, integer? x.1.toList = none := by decide +kernel
  have hinteger := integer?_intText n
  rw [← hname] at hinteger
  cases (hnames x hx).symm.trans hinteger

/-- The text of a stack of integers, the top one last. -/
def itemsText (ns : List Int32) : String := spaced (ns.reverse.map Value.intText)

theorem executeDirective_print {rest : List Value} (h : s.stack = .int n :: rest) :
    executeDirective .print s =
      .ok () { s with stack := rest, output := s.output ++ (Value.intText n ++ " ") } := by
  have hstack : s.stack = [.int n] ++ rest := h
  have htop : topValues "." 1 s = .ok [.int n] s := topValues_append hstack
  rw [executeDirective, Action.bind_of_ok htop]
  simp [Action.bind_apply, drop, print, h, Value.text]

theorem executeDirective_printStack {ns : List Int32} (h : s.stack = ns.map Value.int) :
    executeDirective .printStack s = .ok ()
      { s with output := s.output ++ s!"<{ns.length}> {itemsText ns}\n" } := by
  rw [executeDirective, Action.bind_of_ok (Action.get_apply s)]
  simp [print, h, itemsText, Value.text, Function.comp_def]

/-- What `i>s` makes of an integer, and what `.` prints in front of a space, is read as one token, which
stands for the integer, and then the text is over. So what `.s` prints of a stack of integers builds
the same stack where there was none, if no word is named by one of them; in a fresh session none is. -/
theorem retyped_of_printed :
    (∀ n : Int32, ∃ text, Cast.intToString.apply (.int n) = .ok (.str text) ∧
      (∀ {T : Target} {s : Session T} {rest : List Value}, s.stack = .int n :: rest →
        executeDirective .print s =
          .ok () { s with stack := rest, output := s.output ++ (text ++ " ") }) ∧
      ∃ last, last.rest = [] ∧
        (Cursor.ofText text).tokens = ([⟨text, some (.int n), {}⟩], none, last)) ∧
    (∀ {T T' : Target} (s : Session T) (empty : Session T') (ns : List Int32),
      s.stack = ns.map Value.int → empty.stack = [] →
      (∀ n ∈ ns, empty.dictionary.lookup (Value.intText n) = none) →
      ∃ items, executeDirective .printStack s = .ok ()
          { s with output := s.output ++ s!"<{ns.length}> {items}\n" } ∧
        run items empty = .ok () ({ empty with stack := s.stack } : Session T').takeOver) ∧
    ∀ {T : Target} (target : T.State) (n : Int32),
      (ofTarget target : Session T).dictionary.lookup (Value.intText n) = none := by
  refine ⟨fun n => ⟨Value.intText n, rfl, executeDirective_print, tokens_intText n⟩, ?_,
    fun _ => lookup_withBuiltins_intText⟩
  intro T T' s empty ns hs hempty hnames
  refine ⟨itemsText ns, executeDirective_printStack hs, ?_⟩
  have hreversed : (ns.reverse.map Value.int).reverse = ns.map Value.int := by simp
  have hrun : run (itemsText ns) empty = _ := run_integers (s := empty) fun n hn =>
    hnames n (List.mem_reverse.mp hn)
  rwa [hreversed, hempty, List.append_nil, ← hs] at hrun

def summed : Session Machine.target := ofText "-2147483648 : add + ; 3 4 add"

theorem retyped_of_printed_least : summed.stack = [7, Int32.minValue].map Value.int ∧
    ∃ items, executeDirective .printStack summed =
        .ok () { summed with output := summed.output ++ s!"<2> {items}\n" } ∧
      ∃ s', run items (ofTarget {} : Session Machine.target) = .ok () s' ∧
        s'.stack = summed.stack := by
  have hstack : summed.stack = [7, Int32.minValue].map Value.int := by decide +kernel
  obtain ⟨-, hrebuilt, hfresh⟩ := retyped_of_printed
  obtain ⟨items, hprints, hrun⟩ := hrebuilt summed (ofTarget {} : Session Machine.target) _ hstack
    rfl fun n _ => hfresh _ n
  exact ⟨hstack, items, hprints, _, hrun, rfl⟩

end Session
end StackEffect
