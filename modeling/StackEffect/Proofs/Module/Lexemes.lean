import StackEffect.Proofs.Module.Lines
import StackEffect.Proofs.Session.Retyping
import StackEffect.Proofs.Widening

/-!
The words of a line. A line is cut into words and signs (`lexemes`), and these are read as what they
spell: a number, an operand, a type, what a function is applied to. What has been written is read
again (`operand?_text`, `results?_resultText`, `application?_words`).
-/
namespace StackEffect

/-! ### Words of a line -/

/-- Signs that are words wherever they stand. -/
def isSign (c : Char) : Bool := c = ',' || c = '(' || c = ')'

/-- What ends the word in front of it. -/
def isBreak (c : Char) : Bool := c = ' ' || c = '\n' || isSign c

def setApart (c : Char) : List Char :=
  if isSign c then [' ', c, ' '] else if isBreak c then [' '] else [c]

def unblanked (cs : List Char) : List (List Char) := (cs.splitOn ' ').filter (· ≠ [])

/-- The words of a line and its signs. -/
def lexemes (line : String) : List String :=
  (unblanked (line.toList.flatMap setApart)).map String.ofList

theorem unblanked_append (cs cs' : List Char) :
    unblanked (cs ++ ' ' :: cs') = unblanked cs ++ unblanked cs' := by
  rw [unblanked, List.splitOn_append_cons_self, List.filter_append]
  rfl

theorem unblanked_concat (cs : List Char) : unblanked (cs ++ [' ']) = unblanked cs := by
  rw [unblanked_append]
  exact List.append_nil _

theorem unblanked_cons (cs : List Char) : unblanked (' ' :: cs) = unblanked cs :=
  unblanked_append [] cs

theorem exists_setApart {c : Char} (hc : isBreak c = true) :
    (∃ cs, setApart c = cs ++ [' ']) ∧ ∃ cs, setApart c = ' ' :: cs := by
  unfold setApart
  split_ifs with hsign
  · exact ⟨⟨[' ', c], rfl⟩, ⟨[c, ' '], rfl⟩⟩
  · exact ⟨⟨[], rfl⟩, ⟨[], rfl⟩⟩

/-- Texts are cut apart where the one ends with a break or the other starts with one. -/
theorem lexemes_append {s t : String}
    (h : s.toList.getLast?.all isBreak = true ∨ t.toList.head?.all isBreak = true) :
    lexemes (s ++ t) = lexemes s ++ lexemes t := by
  have hcut : unblanked ((s.toList ++ t.toList).flatMap setApart) =
      unblanked (s.toList.flatMap setApart) ++ unblanked (t.toList.flatMap setApart) := by
    rw [List.flatMap_append]
    rcases h with h | h
    · cases hs : s.toList.getLast? with
      | none =>
        rw [List.getLast?_eq_none_iff.mp hs]
        rfl
      | some c =>
        obtain ⟨front, hfront⟩ := List.getLast?_eq_some_iff.mp hs
        rw [hs] at h
        obtain ⟨⟨cs, hcs⟩, -⟩ := exists_setApart h
        rw [hfront, List.flatMap_append, List.flatMap_singleton, hcs, ← List.append_assoc,
          unblanked_concat, List.append_assoc, List.singleton_append, unblanked_append]
    · cases ht : t.toList with
      | nil => exact (congrArg unblanked (List.append_nil _)).trans (List.append_nil _).symm
      | cons c rest =>
        rw [ht] at h
        obtain ⟨-, cs, hcs⟩ := exists_setApart h
        rw [List.flatMap_cons, hcs, List.cons_append, unblanked_append, unblanked_cons]
  rw [lexemes, String.toList_append, hcut, List.map_append]
  rfl

def IsWord (text : String) : Prop := text ≠ "" ∧ ∀ c ∈ text.toList, isBreak c = false

instance : DecidablePred IsWord := fun text =>
  have := List.decidableBAll (fun c => isBreak c = false) text.toList
  inferInstanceAs (Decidable (_ ∧ _))

theorem lexemes_word {text : String} (h : IsWord text) : lexemes text = [text] := by
  have hapart : text.toList.flatMap setApart = text.toList := by
    refine (List.flatMap_congr fun c hc => ?_).trans (List.flatMap_singleton' _)
    have hbreak := h.2 c hc
    have hsign := (Bool.or_eq_false_iff.mp hbreak).2
    rw [setApart, hsign, hbreak, if_neg Bool.false_ne_true, if_neg Bool.false_ne_true]
  have hblank : ' ' ∉ text.toList := fun hmem => absurd (h.2 _ hmem) (by decide)
  have hne : text.toList ≠ [] := fun hnil => h.1 (String.toList_injective hnil)
  rw [lexemes, hapart, unblanked, List.splitOn_eq_singleton hblank, List.filter_singleton]
  simp [hne]

/-! ### Numbers -/

/-- A number that is written without needless zeros. -/
def natural? (digits : List Char) : Option Nat :=
  let n := Nat.ofDigitChars 10 digits 0
  if Nat.toDigits 10 n = digits then some n else none

def hexadecimal? (digits : List Char) : Option Nat :=
  digits.foldlM (fun n c => (upperHex? c).map (16 * n + ·)) 0

theorem natural?_toDigits (n : Nat) : natural? (Nat.toDigits 10 n) = some n := by
  rw [natural?, Nat.ofDigitChars_ten_toDigits, if_pos rfl]

theorem hexadecimal?_concat (digits : List Char) (c : Char) :
    hexadecimal? (digits ++ [c]) =
      (hexadecimal? digits).bind fun n => (upperHex? c).map (16 * n + ·) := by
  simp [hexadecimal?, List.foldlM_append]

theorem hexadecimal?_toDigits (n : Nat) :
    hexadecimal? ((Nat.toDigits 16 n).map Char.toUpper) = some n := by
  induction n using Nat.strongRecOn with
  | ind n ih =>
    rw [Nat.toDigits_eq_if (by decide)]
    split_ifs with hn
    · simp [hexadecimal?, upperHex?_digitChar n hn]
    · rw [List.map_append, List.map_singleton, hexadecimal?_concat,
        ih (n / 16) (Nat.div_lt_self (by omega) (by decide)), Option.bind_some,
        upperHex?_digitChar _ (Nat.mod_lt n (by decide)), Option.map_some, Nat.div_add_mod]

theorem hexadecimal?_hexUpper (width n : Nat) : hexadecimal? (hexUpper width n) = some n := by
  have hzeros (k : Nat) (digits : List Char) :
      hexadecimal? (List.replicate k '0' ++ digits) = hexadecimal? digits := by
    induction k with
    | zero => rfl
    | succ k ih => exact ih
  rw [hexUpper, List.leftpad, hzeros, hexadecimal?_toDigits]

/-! ### Operands and types -/

/-- The operand that a word spells. A float is spelled by the bits of the binary64 number. -/
def operand? (word : String) : Option IROperand :=
  match word.toList with
  | '%' :: 't' :: digits => (natural? digits).map .temporary
  | '%' :: 'a' :: 'r' :: 'g' :: digits => (natural? digits).map .parameter
  | '@' :: '.' :: 's' :: 't' :: 'r' :: '.' :: digits => (natural? digits).map .string
  | '0' :: 'x' :: digits => (hexadecimal? digits).map fun n => .float (Binary32.ofDoubleBits n)
  | '-' :: digits => (natural? digits).map fun (n : Nat) => .int (Int32.ofInt (-n))
  | digits => (natural? digits).map fun (n : Nat) => .int (Int32.ofInt n)

def temporary? (word : String) : Option Nat :=
  match operand? word with
  | some (.temporary n) => some n
  | _ => none

/-- A structure, or nothing where it is undefined. -/
def source? (word : String) : Option (Option Nat) :=
  if word = "undef" then some none else (temporary? word).map some

def type? (word : String) : Option IRType :=
  if word = "i32" then some .i32
  else if word = "float" then some .float
  else if word = "ptr" then some .ptr
  else none

/-- The operand does not come with a text of its own. -/
def IROperand.Legible : IROperand → Prop
  | verbatim _ => False
  | _ => True

theorem toList_temporaryText (n : Nat) :
    (temporaryText n).toList = '%' :: 't' :: Nat.toDigits 10 n := by
  simp [temporaryText, toString]

theorem toList_parameterText (n : Nat) :
    (parameterText n).toList = '%' :: 'a' :: 'r' :: 'g' :: Nat.toDigits 10 n := by
  simp [parameterText, toString]

theorem toList_floatText (x : Float32) : (IROperand.float x).text.toList =
    '0' :: 'x' :: hexUpper 16 (Binary32.doubleBits x) := by
  simp [IROperand.text]

theorem type?_text (type : IRType) : type? type.text = some type := by
  cases type <;> rfl

theorem operand?_temporaryText (n : Nat) : operand? (temporaryText n) = some (.temporary n) := by
  rw [operand?, toList_temporaryText]
  exact congrArg (Option.map _) (natural?_toDigits n)

theorem temporary?_temporaryText (n : Nat) : temporary? (temporaryText n) = some n := by
  rw [temporary?, operand?_temporaryText]

theorem operand?_digits {word : String} (h : ∀ c ∈ word.toList, c.isDigit = true) :
    operand? word = (natural? word.toList).map fun (n : Nat) => .int (Int32.ofInt n) := by
  unfold operand?
  split
  case h_6 => rfl
  all_goals
    rename_i digits hword
    rw [hword] at h
    simp [Char.isDigit] at h

theorem operand?_int (n : Int32) : operand? (Value.intText n) = some (.int n) := by
  have hlist := toList_intText n
  split_ifs at hlist with hn
  · have habs : -(n.toInt.natAbs : Int) = n.toInt := by omega
    rw [operand?, hlist]
    simp only [natural?_toDigits, Option.map_some, habs, Int32.ofInt_toInt]
  · have habs : (n.toInt.natAbs : Int) = n.toInt := by omega
    rw [operand?_digits, hlist, natural?_toDigits, Option.map_some, habs, Int32.ofInt_toInt]
    intro c hc
    rw [hlist] at hc
    exact Nat.isDigit_of_mem_toDigits (by decide) (by decide) hc

/-- What an operand spells is read again. -/
theorem operand?_text {x : IROperand} (hx : x.Legible) : operand? x.text = some x := by
  cases x with
  | temporary n => exact operand?_temporaryText n
  | parameter n =>
    rw [operand?, IROperand.text, toList_parameterText]
    exact congrArg (Option.map _) (natural?_toDigits n)
  | int n => exact operand?_int n
  | float y =>
    rw [operand?, toList_floatText]
    simp [hexadecimal?_hexUpper, Binary32.ofDoubleBits_doubleBits]
  | string n =>
    rw [operand?, IROperand.text, toList_stringText, toList_stringName]
    exact congrArg (Option.map _) (natural?_toDigits n)
  | verbatim text => exact hx.elim

theorem source?_sourceText (source : Option Nat) : source? (sourceText source) = some source := by
  cases source with
  | none => rfl
  | some n =>
    have hundef : temporaryText n ≠ "undef" := fun h => by
      have hlist := congrArg String.toList h
      rw [toList_temporaryText] at hlist
      cases hlist
    rw [source?, sourceText, if_neg hundef, temporary?_temporaryText]
    rfl

/-! ### Lists -/

def separated? {α : Type} (read? : List String → Option α) (words : List String) :
    Option (List α) :=
  if words = [] then some [] else (words.splitOn ",").mapM read?

/-- Items with commas between them up to a closing sign, and what stands behind it. -/
def items? {α : Type} (close : String) (read? : List String → Option α) (words : List String) :
    Option (List α × List String) := do
  let items ← separated? read? (words.takeWhile (· ≠ close))
  let rest ← (words.dropWhile (· ≠ close)).tail?
  return (items, rest)

theorem mapM_map_eq_some {α β γ : Type} {write : α → β} {read? : β → Option γ} {f : α → γ}
    {xs : List α} (h : ∀ x ∈ xs, read? (write x) = some (f x)) :
    (xs.map write).mapM read? = some (xs.map f) := by
  induction xs with
  | nil => rfl
  | cons x xs ih =>
    rw [List.map_cons, List.mapM_cons, h x List.mem_cons_self,
      ih fun y hy => h y (List.mem_cons_of_mem x hy)]
    rfl

section Items
variable {α : Type} {close : String} {read? : List String → Option α} {parts : List (List String)}
  {xs : List α}

theorem separated?_intercalate (hparts : ∀ part ∈ parts, part ≠ [] ∧ "," ∉ part)
    (h : parts.mapM read? = some xs) : separated? read? ([","].intercalate parts) = some xs := by
  cases parts with
  | nil => simpa [separated?] using h
  | cons part parts =>
    have hne : [","].intercalate (part :: parts) ≠ [] := by
      cases parts <;> simp [List.intercalate, (hparts part List.mem_cons_self).1]
    rw [separated?, if_neg hne, List.splitOn_intercalate "," (fun l hl => (hparts l hl).2)
      (List.cons_ne_nil _ _), h]

/-- Items that are written with commas between them are read one after the other. -/
theorem items?_intercalate (hclose : close ≠ ",")
    (hparts : ∀ part ∈ parts, part ≠ [] ∧ "," ∉ part ∧ close ∉ part)
    (h : parts.mapM read? = some xs) (rest : List String) :
    items? close read? ([","].intercalate parts ++ close :: rest) = some (xs, rest) := by
  have hinner : close ∉ [","].intercalate parts :=
    not_mem_intercalate _ (by simpa using hclose) fun part hpart => (hparts part hpart).2.2
  have hitems := separated?_intercalate (fun part hpart =>
    ⟨(hparts part hpart).1, (hparts part hpart).2.1⟩) h
  simp only [items?, takeWhile_ne_append hinner, dropWhile_ne_append hinner, List.tail?_cons, hitems,
    Option.bind_eq_bind, Option.bind_some, Option.pure_def]

end Items

/-! ### Types and applications -/

def field? : List String → Option IRType
  | [type] => type? type
  | _ => none

def results? : List String → Option (List IRType × List String)
  | "void" :: rest => some ([], rest)
  | "\x7b" :: rest => items? "\x7d" field? rest
  | word :: rest => (type? word).map fun type => ([type], rest)
  | [] => none

def symbol? (word : String) : Option String :=
  match word.toList with
  | '@' :: symbol => some (String.ofList symbol)
  | _ => none

def typed? : List String → Option (IRType × IROperand)
  | [type, operand] => do return (← type? type, ← operand? operand)
  | _ => none

/-- What a function returns, its symbol and its arguments, and what stands behind these. -/
def application? (words : List String) :
    Option (List IRType × String × List (IRType × IROperand) × List String) := do
  let (results, rest) ← results? words
  match rest with
  | callee :: "(" :: rest =>
    let (arguments, rest) ← items? ")" typed? rest
    return (results, ← symbol? callee, arguments, rest)
  | _ => none

def index? (word : String) : Option Nat := natural? word.toList

theorem index?_repr (n : Nat) : index? n.repr = some n := by
  rw [index?, Nat.toList_repr, natural?_toDigits]

/-! ### What has been written -/

theorem isBreak_of_isSymbolChar {c : Char} (h : isSymbolChar c = true) : isBreak c = false := by
  by_contra hbreak
  simp only [isBreak, isSign, Bool.not_eq_false, Bool.or_eq_true, decide_eq_true_eq] at hbreak
  rcases hbreak with (rfl | rfl) | (rfl | rfl) | rfl <;> cases h

theorem isBreak_of_mem_toDigits {n : Nat} {c : Char} (h : c ∈ Nat.toDigits 10 n) :
    isBreak c = false := by
  have hdigit : c.isDigit = true := Nat.isDigit_of_mem_toDigits (by decide) (by decide) h
  exact isBreak_of_isSymbolChar (by simp [isSymbolChar, Char.isAlphanum, hdigit])

theorem IsWord.break_not_mem {text : String} (h : IsWord text) : '\n' ∉ text.toList := fun hmem =>
  absurd (h.2 _ hmem) (by decide)

theorem isWord_of_toList {text : String} {first : Char} {rest : List Char}
    (h : text.toList = first :: rest) (hfirst : isBreak first = false)
    (hrest : ∀ c ∈ rest, isBreak c = false) : IsWord text := by
  constructor
  · rintro rfl
    cases h
  · rw [h]
    exact List.forall_mem_cons.mpr ⟨hfirst, hrest⟩

theorem isWord_type (type : IRType) : IsWord type.text := by
  cases type <;> decide

theorem isWord_temporaryText (n : Nat) : IsWord (temporaryText n) := by
  refine isWord_of_toList (toList_temporaryText n) (by decide) ?_
  exact List.forall_mem_cons.mpr ⟨by decide, fun c hc => isBreak_of_mem_toDigits hc⟩

theorem isWord_sourceText (source : Option Nat) : IsWord (sourceText source) := by
  cases source with
  | none => decide
  | some n => exact isWord_temporaryText n

theorem isWord_numeral (n : Nat) : IsWord (Nat.repr n) := by
  have hbreak : ∀ c ∈ (Nat.repr n).toList, isBreak c = false := fun c hc => by
    rw [Nat.toList_repr] at hc
    exact isBreak_of_mem_toDigits hc
  refine ⟨fun h => ?_, hbreak⟩
  have hnil := congrArg String.toList h
  rw [Nat.toList_repr] at hnil
  exact Nat.toDigits_ne_nil hnil

theorem isWord_symbol {symbol : String} (h : IsPlain symbol) : IsWord ("@" ++ symbol) :=
  isWord_of_toList String.toList_append (by decide) fun c hc => isBreak_of_isSymbolChar (h c hc)

theorem isWord_intText (n : Int32) : IsWord (Value.intText n) := by
  refine ⟨fun h => ?_, fun c hc => ?_⟩
  · have hread := operand?_int n
    rw [h] at hread
    cases hread
  · rw [toList_intText] at hc
    split_ifs at hc
    · rcases List.mem_cons.mp hc with rfl | hdigit
      · decide
      · exact isBreak_of_mem_toDigits hdigit
    · exact isBreak_of_mem_toDigits hc

theorem isWord_operand {x : IROperand} (hx : x.Legible) : IsWord x.text := by
  cases x with
  | temporary n => exact isWord_temporaryText n
  | parameter n =>
    refine isWord_of_toList (toList_parameterText n) (by decide) ?_
    simp only [List.forall_mem_cons]
    exact ⟨by decide, by decide, by decide, fun c hc => isBreak_of_mem_toDigits hc⟩
  | int n => exact isWord_intText n
  | float y =>
    refine isWord_of_toList (toList_floatText y) (by decide) ?_
    exact List.forall_mem_cons.mpr
      ⟨by decide, fun c hc => isBreak_of_isSymbolChar (isSymbolChar_of_mem_hexUpper hc)⟩
  | string n =>
    refine isWord_of_toList (toList_stringText n) (by decide) fun c hc => ?_
    rw [toList_stringName] at hc
    rcases List.mem_append.mp hc with hfront | hdigits
    · exact (by decide : IsWord ".str").2 c hfront
    · rcases List.mem_cons.mp hdigits with rfl | hdigit
      · decide
      · exact isBreak_of_mem_toDigits hdigit
  | verbatim text => exact hx.elim

/-! ### Words of what has been written -/

/-- A piece of text that starts and ends with a break stands apart from what is around it. -/
theorem lexemes_between {piece : String} (words : List String)
    (hbreaks : (piece.toList.head?.any isBreak && piece.toList.getLast?.any isBreak) = true)
    (hwords : lexemes piece = words) (s t : String) :
    lexemes (s ++ piece ++ t) = lexemes s ++ (words ++ lexemes t) := by
  obtain ⟨hfirst, hlast⟩ := Bool.and_eq_true_iff.mp hbreaks
  have hstart : (piece ++ t).toList.head?.all isBreak = true := by
    cases hpiece : piece.toList with
    | nil => simp [hpiece] at hfirst
    | cons c rest => simpa [hpiece] using hfirst
  have hstop : piece.toList.getLast?.all isBreak = true := by
    cases hpiece : piece.toList.getLast? with
    | none => rfl
    | some c => simpa [hpiece] using hlast
  rw [String.append_assoc, lexemes_append (.inr hstart), lexemes_append (.inl hstop), hwords]

theorem lexemes_behind {piece : String} (words : List String)
    (hlast : piece.toList.getLast?.all isBreak = true) (hwords : lexemes piece = words)
    (t : String) : lexemes (piece ++ t) = words ++ lexemes t := by
  rw [lexemes_append (.inl hlast), hwords]

theorem lexemes_blank (s t : String) : lexemes (s ++ " " ++ t) = lexemes s ++ lexemes t :=
  lexemes_between [] (by decide) (by decide) s t

theorem lexemes_comma (s t : String) : lexemes (s ++ ", " ++ t) = lexemes s ++ "," :: lexemes t :=
  lexemes_between [","] (by decide) (by decide) s t

theorem lexemes_commaSeparated (items : List String) :
    lexemes (commaSeparated items) = [","].intercalate (items.map lexemes) := by
  induction items with
  | nil => decide
  | cons item items ih =>
    cases items with
    | nil => simp [commaSeparated, List.intercalate]
    | cons next items =>
      have hcons : commaSeparated (item :: next :: items) =
          item ++ ", " ++ commaSeparated (next :: items) := String.intercalate_cons_cons
      rw [hcons, lexemes_comma, ih]
      simp [List.intercalate]

theorem lexemes_typedText (type : IRType) {x : IROperand} (hx : x.Legible) :
    lexemes (typedText type x) = [type.text, x.text] := by
  have htext : typedText type x = type.text ++ " " ++ x.text := rfl
  rw [htext, lexemes_blank, lexemes_word (isWord_type type), lexemes_word (isWord_operand hx)]
  rfl

/-- What a function returns is read where it has been written. -/
theorem results?_resultText (results : List IRType) (rest : List String) :
    results? (lexemes (resultText results) ++ rest) = some (results, rest) := by
  match results with
  | [] =>
    have hvoid : lexemes (resultText []) = ["void"] := by decide
    rw [hvoid]
    rfl
  | [type] =>
    rw [resultText, lexemes_word (isWord_type type)]
    cases type <;> rfl
  | first :: second :: types =>
    let types' := first :: second :: types
    have htext : resultText types' =
        "\x7b " ++ (commaSeparated (types'.map IRType.text) ++ " \x7d") := String.append_assoc ..
    have hfields : (types'.map IRType.text).map lexemes = types'.map fun type => [type.text] := by
      rw [List.map_map]
      exact List.map_congr_left fun type _ => lexemes_word (isWord_type type)
    have hwords : lexemes (resultText types') =
        "\x7b" :: ([","].intercalate (types'.map fun type => [type.text]) ++ ["\x7d"]) := by
      rw [htext, lexemes_behind ["\x7b"] (by decide) (by decide),
        lexemes_append (.inr (by decide)), lexemes_commaSeparated, hfields]
      rfl
    have hparts : ∀ part ∈ types'.map fun type => [type.text],
        part ≠ [] ∧ "," ∉ part ∧ "\x7d" ∉ part := by
      rw [List.forall_mem_map]
      intro type _
      cases type <;> decide
    have hread : (types'.map fun type => [type.text]).mapM field? = some types' := by
      have hfield : ∀ type ∈ types', field? [type.text] = some (id type) :=
        fun type _ => type?_text type
      rw [mapM_map_eq_some hfield, List.map_id]
    rw [hwords, List.cons_append, List.append_assoc]
    exact items?_intercalate (by decide) hparts hread rest

/-! ### Applications -/

section Application
variable {results : List IRType} {symbol : String} {arguments : List (IRType × IROperand)}

/-- A function with its symbol and what it is applied to, as a call and a definition have it. -/
def applicationText (results : List IRType) (symbol : String)
    (arguments : List (IRType × IROperand)) : String :=
  resultText results ++ " " ++
    ("@" ++ symbol ++ "(" ++ (commaSeparated (arguments.map fun x => typedText x.1 x.2) ++ ")"))

def applicationWords (results : List IRType) (symbol : String)
    (arguments : List (IRType × IROperand)) : List String :=
  lexemes (resultText results) ++ ("@" ++ symbol) :: "(" ::
    ([","].intercalate (arguments.map fun x => [x.1.text, x.2.text]) ++ [")"])

theorem lexemes_applicationText (hsymbol : IsPlain symbol) (ho : ∀ x ∈ arguments, x.2.Legible) :
    lexemes (applicationText results symbol arguments) =
      applicationWords results symbol arguments := by
  have harguments : (arguments.map fun x => typedText x.1 x.2).map lexemes =
      arguments.map fun x => [x.1.text, x.2.text] := by
    rw [List.map_map]
    exact List.map_congr_left fun x hx => lexemes_typedText x.1 (ho x hx)
  rw [applicationText, lexemes_blank, lexemes_between ["("] (by decide) (by decide),
    lexemes_word (isWord_symbol hsymbol), lexemes_append (.inr (by decide)),
    lexemes_commaSeparated, harguments]
  rfl

theorem symbol?_append (symbol : String) : symbol? ("@" ++ symbol) = some symbol := by
  rw [symbol?, String.toList_append]
  exact congrArg some String.ofList_toList

/-- An application is read where it has been written. -/
theorem application?_words (ho : ∀ x ∈ arguments, x.2.Legible) (rest : List String) :
    application? (applicationWords results symbol arguments ++ rest) =
      some (results, symbol, arguments, rest) := by
  have hparts : ∀ part ∈ arguments.map fun x => [x.1.text, x.2.text],
      part ≠ [] ∧ "," ∉ part ∧ ")" ∉ part := by
    rw [List.forall_mem_map]
    intro x hx
    have hsign {sign : String} (hs : ¬IsWord sign) : sign ∉ [x.1.text, x.2.text] := fun hmem => by
      rcases List.mem_cons.mp hmem with rfl | hmem
      · exact hs (isWord_type x.1)
      · exact hs (List.mem_singleton.mp hmem ▸ isWord_operand (ho x hx))
    exact ⟨List.cons_ne_nil _ _, hsign (by decide), hsign (by decide)⟩
  have hread : (arguments.map fun x => [x.1.text, x.2.text]).mapM typed? = some arguments := by
    rw [mapM_map_eq_some (f := id) fun x hx => ?_, List.map_id]
    rw [typed?, type?_text, operand?_text (ho x hx)]
    rfl
  have hitems := items?_intercalate (by decide) hparts hread rest
  rw [application?, applicationWords, List.append_assoc, results?_resultText]
  simp [hitems, symbol?_append]

end Application

end StackEffect
