import StackEffect.Proofs.Module.Globals

/-!
The constants of a module. The line of a string spells its bytes and a zero, and tells how many they
are (`StringConstant.encodes_ofText`); it is read back from them (`constant?_stringLine`), and no
other line is that of a constant (`constants_lines`).
-/
namespace StackEffect

/-! ### Bytes in quotes -/

def upperHex? (c : Char) : Option Nat :=
  if c.isDigit then some (c.toNat - 48)
  else if 'A' ≤ c ∧ c ≤ 'F' then some (c.toNat - 55)
  else none

/-- The bytes that a text in quotes stands for: a backslash takes the two digits behind it, and any
other character stands for itself. -/
def unescaped? : List Char → Option (List UInt8)
  | [] => some []
  | c :: rest =>
    if c = '\\' then
      match rest with
      | high :: low :: rest => do
        let high ← upperHex? high
        let low ← upperHex? low
        let bytes ← unescaped? rest
        return UInt8.ofNat (16 * high + low) :: bytes
      | _ => none
    else (unescaped? rest).map (UInt8.ofNat c.toNat :: ·)

def isQuotable (c : Char) : Bool := ' ' ≤ c && c ≤ '~' && c ≠ '"'

theorem unescaped?_cons {c : Char} (hc : c ≠ '\\') (rest : List Char) :
    unescaped? (c :: rest) = (unescaped? rest).map (UInt8.ofNat c.toNat :: ·) := by
  rw [unescaped?.eq_def]
  dsimp only
  rw [if_neg hc]

theorem unescaped?_escape {high low : Char} {m n : Nat} (hhigh : upperHex? high = some m)
    (hlow : upperHex? low = some n) (rest : List Char) :
    unescaped? ('\\' :: high :: low :: rest) =
      (unescaped? rest).map (UInt8.ofNat (16 * m + n) :: ·) := by
  rw [unescaped?, if_pos rfl, hhigh, hlow]
  cases unescaped? rest <;> rfl

theorem quotable_of_upperHex? {c : Char} {n : Nat} (h : upperHex? c = some n) :
    isQuotable c = true ∧ c ≠ '\\' := by
  have hbetween : '0' ≤ c ∧ c ≤ '9' ∨ 'A' ≤ c ∧ c ≤ 'F' := by
    unfold upperHex? at h
    split_ifs at h with hdigit hletter
    · obtain ⟨hlow, hhigh⟩ := Bool.and_eq_true_iff.mp hdigit
      exact .inl ⟨of_decide_eq_true hlow, of_decide_eq_true hhigh⟩
    · exact .inr hletter
  have hprintable : ' ' ≤ c ∧ c ≤ '~' := by
    rcases hbetween with ⟨hlow, hhigh⟩ | ⟨hlow, hhigh⟩
    · exact ⟨Char.le_trans (by decide) hlow, Char.le_trans hhigh (by decide)⟩
    · exact ⟨Char.le_trans (by decide) hlow, Char.le_trans hhigh (by decide)⟩
  have hne (c' : Char) (hc' : ¬('0' ≤ c' ∧ c' ≤ '9' ∨ 'A' ≤ c' ∧ c' ≤ 'F')) : c ≠ c' := by
    rintro rfl
    exact hc' hbetween
  refine ⟨?_, hne _ (by decide)⟩
  simp [isQuotable, hprintable, hne '"' (by decide)]

theorem upperHex?_digitChar : ∀ d < 16, upperHex? d.digitChar.toUpper = some d := by decide

theorem hexUpper_two : ∀ n < 256,
    hexUpper 2 n = [(n / 16).digitChar.toUpper, (n % 16).digitChar.toUpper] := by
  decide +kernel

/-- A byte is spelled by the character that it is, or by a backslash and two digits. -/
theorem escapedByte_cases (b : UInt8) :
    (∃ c, escapedByte b = [c] ∧ isQuotable c = true ∧ c ≠ '\\' ∧ UInt8.ofNat c.toNat = b) ∨
      ∃ high low m n, escapedByte b = ['\\', high, low] ∧ upperHex? high = some m ∧
        upperHex? low = some n ∧ UInt8.ofNat (16 * m + n) = b := by
  unfold escapedByte
  split_ifs with hb
  · have hall : ∀ n < 256, isPlainByte (UInt8.ofNat n) = true → isQuotable (Char.ofNat n) = true ∧
        Char.ofNat n ≠ '\\' ∧ (Char.ofNat n).toNat = n := by decide +kernel
    obtain ⟨hquotable, hne, hnat⟩ := hall b.toNat b.toNat_lt (by rwa [UInt8.ofNat_toNat])
    exact .inl ⟨_, rfl, hquotable, hne, by rw [hnat, UInt8.ofNat_toNat]⟩
  · rw [hexUpper_two b.toNat b.toNat_lt]
    have hlt := b.toNat_lt
    refine .inr ⟨_, _, b.toNat / 16, b.toNat % 16, rfl, upperHex?_digitChar _ ?_,
      upperHex?_digitChar _ (Nat.mod_lt _ (by decide)), ?_⟩
    · exact Nat.div_lt_of_lt_mul hlt
    · rw [Nat.div_add_mod, UInt8.ofNat_toNat]

section Bytes
variable {bs : List UInt8}

theorem isQuotable_of_mem_escapedBytes {c : Char} (h : c ∈ bs.flatMap escapedByte) :
    isQuotable c = true := by
  obtain ⟨b, -, hc⟩ := List.mem_flatMap.mp h
  rcases escapedByte_cases b with ⟨c', heq, hquotable, -⟩ | ⟨high, low, m, n, heq, hhigh, hlow, -⟩
  · rw [heq] at hc
    rwa [List.mem_singleton.mp hc]
  · rw [heq] at hc
    simp only [List.mem_cons, List.not_mem_nil, or_false] at hc
    rcases hc with rfl | rfl | rfl
    · decide
    · exact (quotable_of_upperHex? hhigh).1
    · exact (quotable_of_upperHex? hlow).1

/-- What is in quotes stands for the bytes that are spelled there. -/
theorem unescaped?_escapedBytes (bs : List UInt8) :
    unescaped? (bs.flatMap escapedByte) = some bs := by
  induction bs with
  | nil => rfl
  | cons b bs ih =>
    rw [List.flatMap_cons]
    rcases escapedByte_cases b with ⟨c, heq, -, hne, hb⟩ | ⟨high, low, m, n, heq, hhigh, hlow, hb⟩
    · rw [heq, List.singleton_append, unescaped?_cons hne, ih, hb]
      rfl
    · rw [heq, List.cons_append, List.cons_append, List.singleton_append,
        unescaped?_escape hhigh hlow, ih, hb]
      rfl

theorem digits_of_backslash {before after : List Char}
    (h : bs.flatMap escapedByte = before ++ '\\' :: after) :
    ∃ high low rest, after = high :: low :: rest ∧ (upperHex? high).isSome = true ∧
      (upperHex? low).isSome = true := by
  induction bs generalizing before with
  | nil => simp at h
  | cons b bs ih =>
    rw [List.flatMap_cons] at h
    rcases escapedByte_cases b with ⟨c, heq, -, hne, -⟩ | ⟨high, low, m, n, heq, hhigh, hlow, -⟩
    · rw [heq] at h
      cases before with
      | nil => exact absurd (List.cons.inj h).1 hne
      | cons _ before => exact ih (List.cons.inj h).2
    · rw [heq] at h
      have hhigh' := (quotable_of_upperHex? hhigh).2
      have hlow' := (quotable_of_upperHex? hlow).2
      match before with
      | [] =>
        cases h
        exact ⟨high, low, _, rfl, by rw [hhigh]; rfl, by rw [hlow]; rfl⟩
      | [_] => exact absurd (List.cons.inj (List.cons.inj h).2).1 hhigh'
      | [_, _] => exact absurd (List.cons.inj (List.cons.inj (List.cons.inj h).2).2).1 hlow'
      | _ :: _ :: _ :: before =>
        exact ih (List.cons.inj (List.cons.inj (List.cons.inj h).2).2).2

end Bytes

/-! ### Lines -/

/-- What the line of a constant says. -/
structure StringConstant where
  name : String
  length : Nat
  quoted : List Char

/-- Reads the line of a constant: its name, how many bytes it has, and their spelling in quotes. -/
def constant? (line : String) : Option StringConstant := do
  let name := line.toList.takeWhile (· ≠ ' ')
  guard (name.head? = some '@')
  let rest ← (line.toList.dropWhile (· ≠ ' ')).dropPrefix?
    " = private unnamed_addr constant [".toList
  let digits := rest.takeWhile Char.isDigit
  let text ← (rest.dropWhile Char.isDigit).dropPrefix? " x i8] c\"".toList
  guard (text.dropWhile (· ≠ '"') = ['"'])
  return {
    name := String.ofList name
    length := Nat.ofDigitChars 10 digits 0
    quoted := text.takeWhile (· ≠ '"') }

/-- A constant holds the bytes of the text and a zero, in printable ASCII without a quote. A
backslash in it stands before two digits. -/
structure StringConstant.Encodes (c : StringConstant) (text : String) : Prop where
  quotable : ∀ x ∈ c.quoted, isQuotable x = true
  escapes : ∀ before after, c.quoted = before ++ '\\' :: after → ∃ high low rest,
    after = high :: low :: rest ∧ (upperHex? high).isSome = true ∧ (upperHex? low).isSome = true
  bytes : unescaped? c.quoted = some (text.toUTF8.toList ++ [0])
  length : c.length = (text.toUTF8.toList ++ [0]).length

def StringConstant.ofText (n : Nat) (text : String) : StringConstant where
  name := stringText n
  length := text.utf8ByteSize + 1
  quoted := (text.toUTF8.toList ++ [0]).flatMap escapedByte

theorem length_toUTF8 (text : String) : text.toUTF8.toList.length = text.utf8ByteSize := by
  have hloop (bytes : ByteArray) (i : Nat) (read : List UInt8) :
      (ByteArray.toList.loop bytes i read).length = read.length + (bytes.size - i) := by
    fun_induction ByteArray.toList.loop bytes i read with
    | case1 i read hlt ih =>
      rw [ih, List.length_cons]
      omega
    | case2 i read hge =>
      rw [List.length_reverse]
      omega
  exact (hloop text.toUTF8 0 []).trans (Nat.zero_add _)

theorem StringConstant.encodes_ofText (n : Nat) (text : String) :
    (ofText n text).Encodes text where
  quotable _ := isQuotable_of_mem_escapedBytes
  escapes _ _ := digits_of_backslash
  bytes := unescaped?_escapedBytes _
  length := by
    rw [List.length_append, length_toUTF8]
    rfl

theorem toList_stringText (n : Nat) : (stringText n).toList = '@' :: (stringName n).toList := by
  simp [stringText, stringName, toString]

theorem stringText_injective {m n : Nat} (h : stringText m = stringText n) : m = n := by
  have hlist := congrArg String.toList h
  rw [toList_stringText, toList_stringText] at hlist
  exact stringName_injective (String.toList_injective (List.cons.inj hlist).2)

theorem toList_stringLine (n : Nat) (text : String) : (stringLine n text).toList =
    (stringText n).toList ++ (" = private unnamed_addr constant [".toList ++
      (Nat.toDigits 10 (text.utf8ByteSize + 1) ++ (" x i8] c\"".toList ++
        ((text.toUTF8.toList ++ [0]).flatMap escapedByte ++ ['"'])))) := by
  have hzero : escapedByte 0 = ['\\', '0', '0'] := by decide
  simp [stringLine, escapedBytes, toString, Nat.repr_eq_ofList_toDigits, hzero]

theorem dropPrefix?_append (front rest : List Char) :
    (front ++ rest).dropPrefix? front = some rest :=
  List.dropPrefix?_eq_some_iff.mpr ⟨front, rfl, beq_self_eq_true front⟩

theorem constant?_eq_some {line : String} {name digits quoted : List Char}
    (hsign : name.head? = some '@') (hname : ' ' ∉ name) (hdigits : ∀ c ∈ digits, c.isDigit = true)
    (hquoted : '"' ∉ quoted) (h : line.toList = name ++ (" = private unnamed_addr constant [".toList
      ++ (digits ++ (" x i8] c\"".toList ++ (quoted ++ ['"']))))) : constant? line =
    some ⟨String.ofList name, Nat.ofDigitChars 10 digits 0, quoted⟩ := by
  have hfront (rest : List Char) : " = private unnamed_addr constant [".toList ++ rest =
      ' ' :: ("= private unnamed_addr constant [".toList ++ rest) := rfl
  have htake (rest : List Char) :
      (digits ++ (" x i8] c\"".toList ++ rest)).takeWhile Char.isDigit = digits := by
    rw [List.takeWhile_append_of_pos hdigits]
    exact List.append_nil digits
  have hdrop (rest : List Char) : (digits ++ (" x i8] c\"".toList ++ rest)).dropWhile Char.isDigit =
      " x i8] c\"".toList ++ rest := by
    rw [List.dropWhile_append_of_pos hdigits]
    rfl
  rw [constant?, h, hfront, takeWhile_ne_append hname, dropWhile_ne_append hname, ← hfront,
    dropPrefix?_append]
  simp only [guard, if_pos hsign, Option.pure_def, Option.bind_eq_bind, Option.bind_some, htake,
    hdrop, dropPrefix?_append, takeWhile_ne_append hquoted, dropWhile_ne_append hquoted, if_true]

theorem constant?_stringLine (n : Nat) (text : String) :
    constant? (stringLine n text) = some (.ofText n text) := by
  have hname : ' ' ∉ (stringText n).toList := by
    rw [toList_stringText, List.mem_cons]
    rintro (hsign | hmem)
    · cases hsign
    · exact blank_not_mem_stringName n hmem
  have hdigits : ∀ c ∈ Nat.toDigits 10 (text.utf8ByteSize + 1), c.isDigit = true := fun c hc =>
    Nat.isDigit_of_mem_toDigits (by decide) (by decide) hc
  have hquoted : '"' ∉ (text.toUTF8.toList ++ [0]).flatMap escapedByte := fun hmem =>
    absurd (isQuotable_of_mem_escapedBytes hmem) (by decide)
  rw [constant?_eq_some (by rw [toList_stringText]; rfl) hname hdigits hquoted
    (toList_stringLine n text), String.ofList_toList, Nat.ofDigitChars_ten_toDigits]
  rfl

theorem constant?_of_head {line : String} (h : line.toList.head? ≠ some '@') :
    constant? line = none := by
  have hname : (line.toList.takeWhile (· ≠ ' ')).head? ≠ some '@' := by
    cases hline : line.toList with
    | nil => simp
    | cons c rest =>
      rw [hline] at h
      rw [List.takeWhile_cons]
      split_ifs
      · exact h
      · simp
  rw [constant?, guard, if_neg hname]
  rfl

theorem head?_headLines {f : IRFunction} {line : String} (h : line ∈ f.headLines) :
    line.toList.head? ≠ some '@' := by
  simp only [IRFunction.headLines, List.mem_cons, List.not_mem_nil, or_false] at h
  rcases h with rfl | rfl
  · simp [toString]
  · decide

theorem head?_body {b : IRBody} {line : String} (h : line ∈ b.lines) :
    line.toList.head? ≠ some '@' := by
  rw [IRBody.lines, List.mem_append, List.mem_append] at h
  rcases h with (hhead | hcode) | hlast
  · cases hb : b.head with
    | none =>
      rw [hb] at hhead
      cases hhead
    | some f =>
      rw [hb] at hhead
      exact head?_headLines hhead
  · obtain ⟨i, -, rfl⟩ := List.mem_map.mp hcode
    obtain ⟨rest, htext⟩ := i.exists_toList_text
    simp [htext]
  · simp only [List.mem_cons, List.not_mem_nil, or_false] at hlast
    rcases hlast with rfl | rfl | rfl
    · obtain ⟨rest, htext⟩ := b.last.exists_toList_text
      simp [htext]
    · decide
    · decide

namespace IRModule

theorem head?_head {m : IRModule} {line : String} (h : line ∈ m.headLines) :
    line.toList.head? ≠ some '@' := by
  simp only [headLines, List.mem_cons, List.not_mem_nil, or_false] at h
  rcases h with rfl | rfl | rfl | rfl <;> simp [toString]

theorem head?_declareLines {m : IRModule} {line : String} (h : line ∈ m.declareLines) :
    line.toList.head? ≠ some '@' := by
  have hdeclaration : ∀ line ∈ m.declarations, line.toList.head? ≠ some '@' := by
    intro line hline
    rcases List.mem_append.mp hline with hexternal | hhelper
    · obtain ⟨f, -, rfl⟩ := List.mem_map.mp hexternal
      simp [IRFunction.declareLine, toString]
    · split_ifs at hhelper
      · rw [List.mem_singleton.mp hhelper]
        decide +kernel
      · cases hhelper
  rw [declareLines_eq] at h
  split_ifs at h
  · cases h
  · rcases List.mem_cons.mp h with rfl | hmem
    · decide
    · exact hdeclaration line hmem

theorem constants_of_head {lines : List String} (h : ∀ line ∈ lines, line.toList.head? ≠ some '@') :
    lines.filterMap constant? = [] :=
  List.filterMap_eq_nil_iff.mpr fun line hline => constant?_of_head (h line hline)

theorem constants_of_stringLines (m : IRModule) : m.stringLines.filterMap constant? =
    m.strings.toList.zipIdx.map fun x => StringConstant.ofText x.2 x.1 := by
  have hstrings : (m.strings.toList.zipIdx.map fun x => stringLine x.2 x.1).filterMap constant? =
      m.strings.toList.zipIdx.map fun x => StringConstant.ofText x.2 x.1 := by
    rw [List.filterMap_map, ← List.filterMap_eq_map]
    refine List.filterMap_congr fun x _ => ?_
    rw [Function.comp_apply, constant?_stringLine, Function.comp_apply]
  rw [stringLines_eq]
  split_ifs with hempty
  · rw [Array.isEmpty_iff.mp hempty]
    rfl
  · rw [List.filterMap_append, hstrings]
    exact List.append_nil _

/-- The only lines of constants are those of the strings. -/
theorem constants_lines (m : IRModule) : m.lines.filterMap constant? =
    m.strings.toList.zipIdx.map fun x => StringConstant.ofText x.2 x.1 := by
  have hbodies : (m.bodies.toList.flatMap IRBody.lines).filterMap constant? = [] := by
    refine constants_of_head fun line hline => ?_
    obtain ⟨b, -, hb⟩ := List.mem_flatMap.mp hline
    exact head?_body hb
  rw [lines, List.filterMap_append, List.filterMap_append, List.filterMap_append,
    constants_of_head fun _ => head?_head, m.constants_of_stringLines, hbodies,
    constants_of_head fun _ => head?_declareLines, List.nil_append, List.append_nil,
    List.append_nil]

/-- A line that starts with the sign of a global is that of a constant. -/
theorem isSome_constant? {m : IRModule} {line : String} (h : line ∈ m.lines)
    (hsign : line.toList.head? = some '@') : (constant? line).isSome = true := by
  rw [lines, List.mem_append, List.mem_append, List.mem_append] at h
  rcases h with ((hhead | hstring) | hbodies) | hdeclare
  · exact absurd hsign (head?_head hhead)
  · rw [stringLines_eq] at hstring
    split_ifs at hstring
    · cases hstring
    · rcases List.mem_append.mp hstring with hline | hline
      · obtain ⟨x, -, rfl⟩ := List.mem_map.mp hline
        rw [constant?_stringLine]
        rfl
      · rw [List.mem_singleton.mp hline] at hsign
        cases hsign
  · obtain ⟨b, -, hb⟩ := List.mem_flatMap.mp hbodies
    exact absurd hsign (head?_body hb)
  · exact absurd hsign (head?_declareLines hdeclare)

end IRModule
end StackEffect
