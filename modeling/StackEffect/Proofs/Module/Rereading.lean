import StackEffect.Proofs.Module.Lexemes

/-!
Reading the lines of bodies. A line is read as the instruction that it spells, with the types and the
operands that stand there, and what has been written is read again (`instruction?_text`,
`return?_text`, `head?_defineLine`). So the bodies of a module are found again in its lines
(`bodies?_contentLines`); a cast that a helper function does is found as the call of that function.
-/
namespace StackEffect

/-! ### Readers -/

def call? (target : Option Nat) (words : List String) : Option IRInstruction :=
  match application? words with
  | some (results, symbol, arguments, []) => some (.call target results symbol arguments)
  | _ => none

def integerOperation? (name : String) : Option BinaryOp :=
  if name = "add" then some .add
  else if name = "sub" then some .sub
  else if name = "mul" then some .mul
  else if name = "sdiv" then some .div
  else if name = "srem" then some .mod
  else none

def floatOperation? (name : String) : Option BinaryOp :=
  if name = "fadd" then some .add
  else if name = "fsub" then some .sub
  else if name = "fmul" then some .mul
  else if name = "fdiv" then some .div
  else if name = "frem" then some .mod
  else none

def operation? (target : Nat) : List String → Option IRInstruction
  | "call" :: words => call? (some target) words
  | "sitofp" :: words =>
    match words with
    | ["i32", operand, "to", "float"] => (operand? operand).map (.cast target .intToFloat)
    | _ => none
  | "fptosi" :: words =>
    match words with
    | ["float", operand, "to", "i32"] => (operand? operand).map (.cast target .floatToInt)
    | _ => none
  | "extractvalue" :: words => do
    match ← results? words with
    | (results, [source, ",", index]) =>
      return .extract target results (← temporary? source) (← index? index)
    | _ => none
  | "insertvalue" :: words => do
    match ← results? words with
    | (results, [source, ",", type, operand, ",", index]) =>
      return .insert target results (← source? source) (← type? type) (← operand? operand)
        (← index? index)
    | _ => none
  | [name, "i32", left, ",", right] => do
    return .integerOp target (← integerOperation? name) (← operand? left) (← operand? right)
  | [name, "float", left, ",", right] => do
    return .floatOp target (← floatOperation? name) (← operand? left) (← operand? right)
  | _ => none

def instruction? (line : String) : Option IRInstruction :=
  match lexemes line with
  | "call" :: words => call? none words
  | target :: "=" :: words => do operation? (← temporary? target) words
  | _ => none

/-! ### Instructions -/

namespace IRInstruction

/-- No text but a plain symbol has been handed to the instruction. -/
def Legible : IRInstruction → Prop
  | integerOp _ _ left right | floatOp _ _ left right => left.Legible ∧ right.Legible
  | cast _ _ operand => operand.Legible
  | call _ _ symbol arguments => IsPlain symbol ∧ ∀ x ∈ arguments, x.2.Legible
  | extract .. => True
  | insert _ _ _ _ operand _ => operand.Legible

/-- An instruction as it is written: the cast of an integer to a string is a call. -/
def written : IRInstruction → IRInstruction
  | cast n .intToString operand => call (some n) [.ptr] intToStringSymbol [(.i32, operand)]
  | i => i

theorem text_of_target? {i : IRInstruction} {n : Nat} (h : i.target? = some n) :
    i.text = "  " ++ (temporaryText n ++ " = " ++ i.operationText) := by
  rw [text, h, String.append_assoc]
  simp [toString, String.append_assoc]

theorem lexemes_text {i : IRInstruction} {n : Nat} (h : i.target? = some n) :
    lexemes i.text = temporaryText n :: "=" :: lexemes i.operationText := by
  rw [text_of_target? h, lexemes_behind [] (by decide) (by decide),
    lexemes_between ["="] (by decide) (by decide), lexemes_word (isWord_temporaryText n)]
  rfl

end IRInstruction

section Operations
variable {n : Nat} {results : List IRType} {x left right : IROperand}

theorem lexemes_binary {name : String} (type : IRType) (hname : IsWord name)
    (hleft : left.Legible) (hright : right.Legible) :
    lexemes (name ++ s!" {type.text} " ++ left.text ++ ", " ++ right.text) =
      [name, type.text, left.text, ",", right.text] := by
  have hpiece : lexemes s!" {type.text} " = [type.text] := by cases type <;> decide
  have hbreaks : (s!" {type.text} ".toList.head?.any isBreak &&
      s!" {type.text} ".toList.getLast?.any isBreak) = true := by cases type <;> decide
  rw [lexemes_comma, lexemes_between [type.text] hbreaks hpiece, lexemes_word hname,
    lexemes_word (isWord_operand hleft), lexemes_word (isWord_operand hright)]
  rfl

theorem operation?_integerOp (op : BinaryOp) (hleft : left.Legible) (hright : right.Legible) :
    operation? n (lexemes (IRInstruction.integerOp n op left right).operationText) =
      some (.integerOp n op left right) := by
  have hname : IsWord (integerMnemonic op) := by cases op <;> decide
  have hwords : lexemes (IRInstruction.integerOp n op left right).operationText = _ :=
    lexemes_binary .i32 hname hleft hright
  have hread : integerOperation? (integerMnemonic op) = some op := by cases op <;> rfl
  calc operation? n (lexemes (IRInstruction.integerOp n op left right).operationText)
    _ = (do
        let op' ← integerOperation? (integerMnemonic op)
        return .integerOp n op' (← operand? left.text) (← operand? right.text)) := by
      rw [hwords]
      cases op <;> rfl
    _ = some (.integerOp n op left right) := by
      rw [hread, operand?_text hleft, operand?_text hright]
      rfl

theorem operation?_floatOp (op : BinaryOp) (hleft : left.Legible) (hright : right.Legible) :
    operation? n (lexemes (IRInstruction.floatOp n op left right).operationText) =
      some (.floatOp n op left right) := by
  have hname : IsWord (floatMnemonic op) := by cases op <;> decide
  have hwords : lexemes (IRInstruction.floatOp n op left right).operationText = _ :=
    lexemes_binary .float hname hleft hright
  have hread : floatOperation? (floatMnemonic op) = some op := by cases op <;> rfl
  calc operation? n (lexemes (IRInstruction.floatOp n op left right).operationText)
    _ = (do
        let op' ← floatOperation? (floatMnemonic op)
        return .floatOp n op' (← operand? left.text) (← operand? right.text)) := by
      rw [hwords]
      cases op <;> rfl
    _ = some (.floatOp n op left right) := by
      rw [hread, operand?_text hleft, operand?_text hright]
      rfl

theorem lexemes_call {symbol : String} {arguments : List (IRType × IROperand)} (target : Option Nat)
    (hsymbol : IsPlain symbol) (ho : ∀ x ∈ arguments, x.2.Legible) :
    lexemes (IRInstruction.call target results symbol arguments).operationText =
      "call" :: applicationWords results symbol arguments := by
  have htext : (IRInstruction.call target results symbol arguments).operationText =
      "call " ++ applicationText results symbol arguments := by
    dsimp only [IRInstruction.operationText]
    exact String.toList_injective (by simp [toString, applicationText])
  rw [htext, lexemes_behind ["call"] (by decide) (by decide), lexemes_applicationText hsymbol ho]
  rfl

theorem call?_words {symbol : String} {arguments : List (IRType × IROperand)}
    (target : Option Nat) (ho : ∀ x ∈ arguments, x.2.Legible) :
    call? target (applicationWords results symbol arguments) =
      some (.call target results symbol arguments) := by
  have happlication : application? (applicationWords results symbol arguments ++ []) = _ :=
    application?_words ho []
  rw [List.append_nil] at happlication
  rw [call?, happlication]

theorem isPlain_intToStringSymbol : IsPlain intToStringSymbol := by
  simp [IsPlain, intToStringSymbol, isSymbolChar]

theorem operation?_cast (c : Cast) (hx : x.Legible) :
    operation? n (lexemes (IRInstruction.cast n c x).operationText) =
      some (IRInstruction.cast n c x).written := by
  have hword := lexemes_word (isWord_operand hx)
  have hread := operand?_text hx
  cases c with
  | intToFloat =>
    have htext : (IRInstruction.cast n .intToFloat x).operationText =
        "sitofp i32 " ++ (x.text ++ " to float") := String.append_assoc ..
    rw [htext, lexemes_behind ["sitofp", "i32"] (by decide) (by decide),
      lexemes_append (.inr (by decide)), hword]
    exact congrArg (Option.map _) hread
  | floatToInt =>
    have htext : (IRInstruction.cast n .floatToInt x).operationText =
        "fptosi float " ++ (x.text ++ " to i32") := String.append_assoc ..
    rw [htext, lexemes_behind ["fptosi", "float"] (by decide) (by decide),
      lexemes_append (.inr (by decide)), hword]
    exact congrArg (Option.map _) hread
  | intToString =>
    -- The cast is written as the call of the function that does it.
    have htext : (IRInstruction.cast n .intToString x).operationText = (IRInstruction.call
        (some n) [.ptr] intToStringSymbol [(.i32, x)]).operationText := by
      dsimp only [IRInstruction.operationText, castText]
      exact String.toList_injective
        (by simp [toString, commaSeparated, typedText, resultText, IRType.text])
    have ho : ∀ y ∈ [(IRType.i32, x)], y.2.Legible := List.forall_mem_singleton.mpr hx
    rw [htext, lexemes_call (some n) isPlain_intToStringSymbol ho]
    exact call?_words (some n) ho

theorem operation?_extract (source index : Nat) :
    operation? n (lexemes (IRInstruction.extract n results source index).operationText) =
      some (.extract n results source index) := by
  have htext : (IRInstruction.extract n results source index).operationText =
      "extractvalue " ++
        (resultText results ++ " " ++ (temporaryText source ++ ", " ++ index.repr)) := by
    dsimp only [IRInstruction.operationText]
    exact String.toList_injective (by simp [toString])
  rw [htext, lexemes_behind ["extractvalue"] (by decide) (by decide), lexemes_blank,
    lexemes_comma, lexemes_word (isWord_temporaryText source),
    lexemes_word (isWord_numeral index)]
  rw [List.singleton_append, operation?, results?_resultText]
  simp [temporary?_temporaryText, index?_repr]

theorem operation?_insert (source : Option Nat) (type : IRType) (index : Nat) (hx : x.Legible) :
    operation? n (lexemes (IRInstruction.insert n results source type x index).operationText) =
      some (.insert n results source type x index) := by
  have htext : (IRInstruction.insert n results source type x index).operationText =
      "insertvalue " ++ (resultText results ++ " " ++
        (sourceText source ++ ", " ++ (typedText type x ++ ", " ++ index.repr))) := by
    dsimp only [IRInstruction.operationText]
    exact String.toList_injective (by simp [toString])
  rw [htext, lexemes_behind ["insertvalue"] (by decide) (by decide), lexemes_blank,
    lexemes_comma, lexemes_comma, lexemes_word (isWord_sourceText source),
    lexemes_typedText type hx, lexemes_word (isWord_numeral index)]
  rw [List.singleton_append, operation?, results?_resultText]
  simp [source?_sourceText, type?_text, operand?_text hx, index?_repr]

/-- An operation is read where it has been written. -/
theorem operation?_operationText {i : IRInstruction} (hi : i.Legible) (hn : i.target? = some n) :
    operation? n (lexemes i.operationText) = some i.written := by
  cases i with
  | integerOp target op left right =>
    cases hn
    exact operation?_integerOp op hi.1 hi.2
  | floatOp target op left right =>
    cases hn
    exact operation?_floatOp op hi.1 hi.2
  | cast target c operand =>
    cases hn
    exact operation?_cast c hi
  | call target results symbol arguments =>
    cases hn
    rw [lexemes_call (some n) hi.1 hi.2]
    exact call?_words (some n) hi.2
  | extract target results source index =>
    cases hn
    exact operation?_extract source index
  | insert target results source type operand index =>
    cases hn
    exact operation?_insert source type index hi

end Operations

theorem temporaryText_ne {word : String} {n : Nat} (h : word.toList.head? ≠ some '%') :
    temporaryText n ≠ word := by
  rintro rfl
  rw [toList_temporaryText] at h
  exact h rfl

/-- An instruction is read where it has been written. -/
theorem instruction?_text {i : IRInstruction} (hi : i.Legible) :
    instruction? i.text = some i.written := by
  cases htarget : i.target? with
  | some n =>
    rw [instruction?, IRInstruction.lexemes_text htarget]
    split
    · rename_i words hwords
      exact absurd (List.cons.inj hwords).1 (temporaryText_ne (by decide))
    · rename_i hwords
      cases hwords
      rw [temporary?_temporaryText]
      exact operation?_operationText hi htarget
    · rename_i hwords
      exact absurd rfl (hwords _ _)
  | none =>
    cases i with
    | call target results symbol arguments =>
      cases htarget
      have htext : (IRInstruction.call none results symbol arguments).text =
          "  " ++ (IRInstruction.call none results symbol arguments).operationText := rfl
      rw [instruction?, htext, lexemes_behind [] (by decide) (by decide),
        lexemes_call none hi.1 hi.2]
      exact call?_words none hi.2
    | integerOp | floatOp | cast | extract | insert => cases htarget

example : instruction? "  %t1 = call \x7b i32, ptr \x7d @f.1(float %t0, i32 -2)" =
    some (.call (some 1) [.i32, .ptr] "f.1" [(.float, .temporary 0), (.i32, .int (-2))]) := by
  decide +kernel

/-! ### Returns -/

def return? (line : String) : Option IRReturn :=
  match lexemes line with
  | "ret" :: words => do
    match ← results? words with
    | ([], []) => return .nothing
    | ([type], [operand]) => return .value type (← operand? operand)
    | (results, [source]) => return .aggregate results (← source? source)
    | _ => none
  | _ => none

def IRReturn.Legible : IRReturn → Prop
  | nothing => True
  | value _ operand => operand.Legible
  | aggregate results _ => 1 < results.length

theorem return?_text {r : IRReturn} (hr : r.Legible) : return? r.text = some r := by
  cases r with
  | nothing => rfl
  | value type operand =>
    have hwords : lexemes (IRReturn.value type operand).text =
        "ret" :: (lexemes (resultText [type]) ++ [operand.text]) := by
      rw [IRReturn.text, lexemes_behind ["ret"] (by decide) (by decide),
        lexemes_typedText type hr, resultText, lexemes_word (isWord_type type)]
      rfl
    rw [return?, hwords]
    simp [results?_resultText, operand?_text hr]
  | aggregate results source =>
    have htext : (IRReturn.aggregate results source).text =
        "  ret " ++ (resultText results ++ " " ++ sourceText source) :=
      String.toList_injective (by simp [IRReturn.text, toString])
    rw [return?, htext, lexemes_behind ["ret"] (by decide) (by decide), lexemes_blank,
      lexemes_word (isWord_sourceText source)]
    cases results with
    | nil => exact absurd hr (Nat.not_lt_zero 1)
    | cons first rest =>
      cases rest with
      | nil => exact absurd hr (Nat.lt_irrefl 1)
      | cons second types => simp [results?_resultText, source?_sourceText]

/-! ### Heads -/

def IRType.valueType : IRType → ValueType
  | i32 => .int32
  | float => .float
  | ptr => .string

theorem IRType.valueType_of_ofValueType {type : ValueType} {lowered : IRType}
    (h : ofValueType type = .ok lowered) : lowered.valueType = type := by
  cases type <;> cases h <;> rfl

theorem IRType.map_valueType {types : List ValueType} {lowered : List IRType}
    (h : types.mapM ofValueType = .ok lowered) : lowered.map valueType = types := by
  have hread := Pointwise.symm (Except.mapM_eq_ok.mp h)
  have heq := hread.imp fun _ _ hl => valueType_of_ofValueType hl
  rwa [← List.forall₂_map_left_iff, List.forall₂_eq_eq_eq] at heq

namespace IRFunction

/-- The function with these types, which are those of its signature. -/
def ofTypes (symbol : String) (parameters results : List IRType) : IRFunction where
  symbol
  signature := ⟨parameters.map IRType.valueType, results.map IRType.valueType⟩
  parameters
  results

theorem Typed.eq_ofTypes {f : IRFunction} (h : f.Typed) :
    f = ofTypes f.symbol f.parameters f.results := by
  rw [ofTypes, IRType.map_valueType h.parameters, IRType.map_valueType h.results]

def named (f : IRFunction) : List (IRType × IROperand) :=
  f.parameters.zipIdx.map fun x => (x.1, .parameter x.2)

def defineLine (f : IRFunction) : String :=
  "define " ++ (applicationText f.results f.symbol f.named ++ " \x7b")

theorem headLines_eq (f : IRFunction) : f.headLines = [f.defineLine, "entry:"] := by
  have htext : f.named.map (fun x => typedText x.1 x.2) =
      f.parameters.zipIdx.map fun x => s!"{x.1.text} {parameterText x.2}" := by
    rw [named, List.map_map]
    rfl
  rw [headLines, defineLine, applicationText, htext]
  exact congrArg (· :: ["entry:"]) (String.toList_injective (by simp [toString]))

theorem map_fst_named (f : IRFunction) : f.named.map Prod.fst = f.parameters := by
  simp [named, Function.comp_def]

end IRFunction

/-- The function whose definition a line starts. -/
def head? (line : String) : Option IRFunction :=
  match lexemes line with
  | "define" :: words =>
    match application? words with
    | some (results, symbol, arguments, ["\x7b"]) =>
      let f := IRFunction.ofTypes symbol (arguments.map Prod.fst) results
      if f.named = arguments then some f else none
    | _ => none
  | _ => none

/-- The head of a body is read where it has been written. -/
theorem head?_defineLine {f : IRFunction} (hf : f.Typed) (hplain : IsPlain f.symbol) :
    head? f.defineLine = some f := by
  have hnamed : ∀ x ∈ f.named, x.2.Legible := by
    intro x hx
    obtain ⟨_, -, rfl⟩ := List.mem_map.mp hx
    trivial
  have hwords : lexemes f.defineLine =
      "define" :: (applicationWords f.results f.symbol f.named ++ ["\x7b"]) := by
    rw [IRFunction.defineLine, lexemes_behind ["define"] (by decide) (by decide),
      lexemes_append (.inr (by decide)), lexemes_applicationText hplain hnamed]
    rfl
  have heq : IRFunction.ofTypes f.symbol (f.named.map Prod.fst) f.results = f := by
    rw [f.map_fst_named, ← hf.eq_ofTypes]
  rw [head?, hwords]
  simp only [application?_words hnamed, heq, if_true]

/-! ### Bodies -/

namespace IRBody

def written (b : IRBody) : IRBody := { b with code := b.code.map IRInstruction.written }

def innerLines (b : IRBody) : List String :=
  (b.head.map IRFunction.headLines).getD [] ++ b.code.toList.map IRInstruction.text ++ [b.last.text]

theorem lines_eq (b : IRBody) : b.lines = b.innerLines ++ ["\x7d", ""] := by
  rw [lines, innerLines, List.append_assoc _ [b.last.text]]
  rfl

structure Legible (b : IRBody) : Prop where
  head : ∃ f, b.head = some f ∧ f.Typed ∧ IsPlain f.symbol
  code : ∀ i ∈ b.code.toList, i.Legible
  last : b.last.Legible

end IRBody

def body? : List String → Option IRBody
  | line :: "entry:" :: lines => do
    let f ← head? line
    let code ← lines.dropLast.mapM instruction?
    let last ← lines.getLast? >>= return?
    return { head := some f, code := code.toArray, last }
  | _ => none

theorem body?_innerLines {b : IRBody} (hb : b.Legible) : body? b.innerLines = some b.written := by
  obtain ⟨f, hf, htyped, hplain⟩ := hb.head
  have hlines : b.innerLines =
      f.defineLine :: "entry:" :: (b.code.toList.map IRInstruction.text ++ [b.last.text]) := by
    rw [IRBody.innerLines, hf, Option.map_some, Option.getD_some, f.headLines_eq]
    rfl
  have hcode : (b.code.toList.map IRInstruction.text).mapM instruction? =
      some (b.code.toList.map IRInstruction.written) :=
    mapM_map_eq_some fun i hi => instruction?_text (hb.code i hi)
  have hwritten : (b.code.toList.map IRInstruction.written).toArray =
      b.code.map IRInstruction.written := Array.ext' (by simp)
  rw [hlines, body?, head?_defineLine htyped hplain]
  simp [hcode, hwritten, return?_text hb.last, IRBody.written, hf]

/-! ### Modules -/

def isHead (line : String) : Bool := "define ".toList.isPrefixOf line.toList

/-- The lines of each body, from its head to its closing brace. -/
def bodyLines (lines : List String) : List (List String) :=
  ((lines.splitOn "\x7d").map (·.dropWhile fun line => !isHead line)).filter (· ≠ [])

def bodies? (lines : List String) : Option (List IRBody) := (bodyLines lines).mapM body?

/-- The line neither starts a body nor stops one. -/
def Idle (line : String) : Prop := isHead line = false ∧ line ≠ "\x7d"

instance : DecidablePred Idle := fun _ => inferInstanceAs (Decidable (_ ∧ _))

theorem idle_of_toList {line : String} {c : Char} {rest : List Char} (h : line.toList = c :: rest)
    (hc : c ≠ 'd' ∧ c ≠ '\x7d') : Idle line := by
  refine ⟨by simp [isHead, h, List.isPrefixOf, hc.1.symm], fun hbrace => ?_⟩
  rw [hbrace] at h
  exact hc.2 (List.cons.inj h).1.symm

theorem idle_instruction (i : IRInstruction) : Idle i.text := by
  obtain ⟨rest, htext⟩ := i.exists_toList_text
  exact idle_of_toList htext (by decide)

theorem idle_return (r : IRReturn) : Idle r.text := by
  obtain ⟨rest, htext⟩ := r.exists_toList_text
  exact idle_of_toList htext (by decide)

theorem idle_stringLine (n : Nat) (text : String) : Idle (stringLine n text) := by
  have hline := toList_stringLine n text
  rw [toList_stringText] at hline
  exact idle_of_toList hline (by decide)

theorem idle_declareLine (f : IRFunction) : Idle f.declareLine := by
  have htext : f.declareLine.toList.take 4 = "decl".toList := by
    simp [IRFunction.declareLine, toString]
  refine ⟨?_, fun hbrace => ?_⟩
  · simp [isHead, IRFunction.declareLine, toString, List.isPrefixOf]
  · rw [hbrace] at htext
    cases htext

theorem exists_innerLines {b : IRBody} (hb : b.Legible) :
    "\x7d" ∉ b.innerLines ∧ ∃ line lines, b.innerLines = line :: lines ∧ isHead line = true := by
  obtain ⟨f, hf, -, -⟩ := hb.head
  have hlines : b.innerLines =
      f.defineLine :: "entry:" :: (b.code.toList.map IRInstruction.text ++ [b.last.text]) := by
    rw [IRBody.innerLines, hf, Option.map_some, Option.getD_some, f.headLines_eq]
    rfl
  have hhead : isHead f.defineLine = true := by
    rw [isHead, IRFunction.defineLine, String.toList_append, List.isPrefixOf_iff_prefix]
    exact List.prefix_append ..
  refine ⟨fun hmem => ?_, _, _, hlines, hhead⟩
  rw [hlines, List.mem_cons, List.mem_cons, List.mem_append, List.mem_singleton] at hmem
  rcases hmem with hbrace | hbrace | hbrace | hbrace
  · rw [← hbrace] at hhead
    cases hhead
  · exact absurd hbrace (by decide)
  · obtain ⟨i, -, hi⟩ := List.mem_map.mp hbrace
    exact (idle_instruction i).2 hi
  · exact (idle_return b.last).2 hbrace.symm

section Idle
variable {front : List String}

theorem bodyLines_idle (hfront : ∀ line ∈ front, Idle line) : bodyLines front = [] := by
  have hdrop : front.dropWhile (fun line => !isHead line) = [] :=
    List.dropWhile_eq_nil_iff.mpr fun line hline => by simp [(hfront line hline).1]
  rw [bodyLines, List.splitOn_eq_singleton fun hmem => (hfront _ hmem).2 rfl, List.map_singleton,
    hdrop]
  rfl

theorem bodyLines_append (hfront : ∀ line ∈ front, Idle line) {b : IRBody} (hb : b.Legible)
    (lines : List String) :
    bodyLines (front ++ (b.lines ++ lines)) = b.innerLines :: bodyLines ("" :: lines) := by
  obtain ⟨hbrace, line, rest, hinner, hhead⟩ := exists_innerLines hb
  have hcut : front ++ (b.lines ++ lines) = (front ++ b.innerLines) ++ "\x7d" :: "" :: lines := by
    simp [b.lines_eq]
  have hone : "\x7d" ∉ front ++ b.innerLines := fun hmem => by
    rcases List.mem_append.mp hmem with hmem | hmem
    · exact (hfront _ hmem).2 rfl
    · exact hbrace hmem
  have hdrop : (front ++ b.innerLines).dropWhile (fun line => !isHead line) = b.innerLines := by
    rw [List.dropWhile_append_of_pos fun line hline => by simp [(hfront line hline).1], hinner]
    exact List.dropWhile_cons_of_neg (by simp [hhead])
  rw [bodyLines, hcut, List.splitOn_append_cons_self, List.splitOn_eq_singleton hone,
    List.singleton_append, List.map_cons, hdrop, List.filter_cons_of_pos (by simp [hinner])]
  rfl

/-- The lines of bodies are told apart, between lines that belong to no body. -/
theorem bodyLines_flatMap {bodies : List IRBody} (hbodies : ∀ b ∈ bodies, b.Legible)
    {back : List String} (hfront : ∀ line ∈ front, Idle line) (hback : ∀ line ∈ back, Idle line) :
    bodyLines (front ++ (bodies.flatMap IRBody.lines ++ back)) = bodies.map IRBody.innerLines := by
  induction bodies generalizing front with
  | nil => exact bodyLines_idle (List.forall_mem_append.mpr ⟨hfront, hback⟩)
  | cons b bodies ih =>
    have hempty : ∀ line ∈ [""], Idle line := List.forall_mem_singleton.mpr (by decide)
    rw [List.flatMap_cons, List.append_assoc, bodyLines_append hfront (hbodies b List.mem_cons_self),
      List.map_cons]
    exact congrArg _ (ih (fun b' hb' => hbodies b' (List.mem_cons_of_mem b hb')) hempty)

end Idle

theorem bodies?_lines {bodies : List IRBody} (hbodies : ∀ b ∈ bodies, b.Legible)
    {front back : List String} (hfront : ∀ line ∈ front, Idle line)
    (hback : ∀ line ∈ back, Idle line) :
    bodies? (front ++ (bodies.flatMap IRBody.lines ++ back)) = some (bodies.map IRBody.written) := by
  rw [bodies?, bodyLines_flatMap hbodies hfront hback]
  exact mapM_map_eq_some fun b hb => body?_innerLines (hbodies b hb)

theorem IRInstruction.Legible.handed {i : IRInstruction} (hi : i.Legible) :
    ∀ text ∈ i.handed, '\n' ∉ text.toList := by
  cases i with
  | integerOp | floatOp =>
    exact List.forall_mem_cons.mpr ⟨(isWord_operand hi.1).break_not_mem,
      List.forall_mem_singleton.mpr (isWord_operand hi.2).break_not_mem⟩
  | cast | insert => exact List.forall_mem_singleton.mpr (isWord_operand hi).break_not_mem
  | call target results symbol arguments =>
    refine List.forall_mem_cons.mpr ⟨hi.1.not_mem, List.forall_mem_map.mpr fun x hx => ?_⟩
    exact (isWord_operand (hi.2 x hx)).break_not_mem
  | extract => exact List.forall_mem_nil _

theorem IRReturn.Legible.handed {r : IRReturn} (hr : r.Legible) :
    ∀ text ∈ r.handed, '\n' ∉ text.toList := by
  cases r with
  | nothing | aggregate => exact List.forall_mem_nil _
  | value => exact List.forall_mem_singleton.mpr (isWord_operand hr).break_not_mem

theorem IRBody.Legible.lined {b : IRBody} (hb : b.Legible) : b.Lined where
  head f hf := by
    obtain ⟨g, hg, -, hplain⟩ := hb.head
    cases hg.symm.trans hf
    exact hplain.not_mem
  code i hi := (hb.code i (Array.mem_toList_iff.mpr hi)).handed
  last := hb.last.handed

/-- One body is found in its own text. -/
theorem IRBody.Legible.bodies?_text {b : IRBody} (hb : b.Legible) :
    bodies? (textLines (linesText b.lines)) = some [b.written] := by
  have hone := bodies?_lines (List.forall_mem_singleton.mpr hb) (List.forall_mem_nil Idle)
    (List.forall_mem_nil Idle)
  rw [List.flatMap_singleton, List.append_nil] at hone
  rw [textLines_linesText hb.lined.break_not_mem]
  exact hone

theorem IRModule.bodies?_contentLines {m : IRModule} (h : ∀ b ∈ m.bodies, b.Legible) :
    bodies? m.contentLines = some (m.bodies.toList.map IRBody.written) := by
  have hfront : ∀ line ∈ m.stringLines, Idle line := by
    intro line hline
    rw [m.stringLines_eq] at hline
    split_ifs at hline
    · cases hline
    · rcases List.mem_append.mp hline with hline | hline
      · obtain ⟨x, -, rfl⟩ := List.mem_map.mp hline
        exact idle_stringLine x.2 x.1
      · rw [List.mem_singleton.mp hline]
        decide
  have hback : ∀ line ∈ m.declareLines, Idle line := by
    intro line hline
    rw [m.declareLines_eq] at hline
    split_ifs at hline
    · cases hline
    · rcases List.mem_cons.mp hline with rfl | hline
      · decide
      · rcases List.mem_append.mp hline with hexternal | hhelper
        · obtain ⟨f, -, rfl⟩ := List.mem_map.mp hexternal
          exact idle_declareLine f
        · split_ifs at hhelper
          · rw [List.mem_singleton.mp hhelper]
            decide +kernel
          · cases hhelper
  rw [contentLines, List.append_assoc]
  exact bodies?_lines (fun b hb => h b (Array.mem_toList_iff.mp hb)) hfront hback

end StackEffect
