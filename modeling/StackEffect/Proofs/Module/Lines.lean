import StackEffect.Proofs.Module.Strings

/-!
The text of a module and its lines. A text whose lines hold no line break is cut into them again
(`textLines_linesText`), and the lines of a module hold one only where it has been handed one
(`IRModule.textLines_text`).
-/
namespace StackEffect

/-! ### Lines -/

/-- The lines one after the other, each with a line break behind it. -/
def linesText (lines : List String) : String := String.join (lines.map (· ++ "\n"))

/-- What stands in front of the line breaks of a text. -/
def textLines (text : String) : List String :=
  ((text.toList.splitOn '\n').map String.ofList).dropLast

theorem linesText_append (lines more : List String) :
    linesText (lines ++ more) = linesText lines ++ linesText more := by
  simp [linesText, String.join_append]

theorem splitOn_linesText {lines : List String} (h : ∀ line ∈ lines, '\n' ∉ line.toList) :
    (linesText lines).toList.splitOn '\n' = lines.map String.toList ++ [[]] := by
  induction lines with
  | nil => rfl
  | cons line lines ih =>
    have hcons : (linesText (line :: lines)).toList = line.toList ++ '\n' :: (linesText lines).toList := by
      simp [linesText, String.join_cons]
    rw [hcons, List.splitOn_append_cons_self, List.splitOn_eq_singleton (h line List.mem_cons_self),
      ih fun line' hline' => h line' (List.mem_cons_of_mem line hline')]
    rfl

theorem textLines_linesText {lines : List String} (h : ∀ line ∈ lines, '\n' ∉ line.toList) :
    textLines (linesText lines) = lines := by
  rw [textLines, splitOn_linesText h]
  simp [Function.comp_def]

/-! ### What holds no line break -/

theorem IsPlain.not_mem {symbol : String} (h : IsPlain symbol) : '\n' ∉ symbol.toList := fun hmem =>
  absurd (h _ hmem) (by decide)

@[simp] theorem break_not_mem_toDigits (n : Nat) : '\n' ∉ Nat.toDigits 10 n := fun hmem =>
  absurd (Nat.isDigit_of_mem_toDigits (by decide) (by decide) hmem) (by decide)

@[simp] theorem break_not_mem_type (type : IRType) : '\n' ∉ type.text.toList := by
  cases type <;> decide

@[simp] theorem break_not_mem_resultText (results : List IRType) :
    '\n' ∉ (resultText results).toList :=
  not_mem_resultText (by decide) break_not_mem_type (by decide) results

theorem break_not_mem_commaSeparated {items : List String} (h : ∀ item ∈ items, '\n' ∉ item.toList) :
    '\n' ∉ (commaSeparated items).toList := by
  rw [commaSeparated, String.toList_intercalate]
  refine not_mem_intercalate _ (by decide) fun text htext => ?_
  obtain ⟨item, hitem, rfl⟩ := List.mem_map.mp htext
  exact h item hitem

@[simp] theorem break_not_mem_temporaryText (n : Nat) : '\n' ∉ (temporaryText n).toList := by
  simp [temporaryText, toString]

@[simp] theorem break_not_mem_parameterText (n : Nat) : '\n' ∉ (parameterText n).toList := by
  simp [parameterText, toString]

@[simp] theorem break_not_mem_sourceText (source : Option Nat) :
    '\n' ∉ (sourceText source).toList := by
  cases source with
  | none => decide
  | some n => exact break_not_mem_temporaryText n

/-- The texts that an instruction has been handed: its operands, and the symbol of what it calls. -/
def IRInstruction.handed : IRInstruction → List String
  | integerOp _ _ left right | floatOp _ _ left right => [left.text, right.text]
  | cast _ _ operand => [operand.text]
  | call _ _ symbol arguments => symbol :: arguments.map fun (_, operand) => operand.text
  | extract .. => []
  | insert _ _ _ _ operand _ => [operand.text]

theorem break_not_mem_typedText (type : IRType) {operand : IROperand}
    (h : '\n' ∉ operand.text.toList) : '\n' ∉ (typedText type operand).toList := by
  simp [typedText, toString, h]

theorem break_not_mem_operationText {i : IRInstruction}
    (h : ∀ text ∈ i.handed, '\n' ∉ text.toList) : '\n' ∉ i.operationText.toList := by
  cases i with
  | integerOp n op left right =>
    have hname : '\n' ∉ (integerMnemonic op).toList := by cases op <;> decide
    dsimp only [IRInstruction.handed, IRInstruction.operationText] at h ⊢
    simp only [List.forall_mem_cons] at h
    simp [toString, hname, h]
  | floatOp n op left right =>
    have hname : '\n' ∉ (floatMnemonic op).toList := by cases op <;> decide
    dsimp only [IRInstruction.handed, IRInstruction.operationText] at h ⊢
    simp only [List.forall_mem_cons] at h
    simp [toString, hname, h]
  | cast n c operand =>
    have hoperand := h _ (List.mem_singleton_self _)
    dsimp only [IRInstruction.operationText]
    cases c <;> simp [castText, intToStringSymbol, toString, hoperand]
  | call n results symbol arguments =>
    dsimp only [IRInstruction.handed, IRInstruction.operationText] at h ⊢
    rw [List.forall_mem_cons, List.forall_mem_map] at h
    have harguments : '\n' ∉
        (commaSeparated (arguments.map fun x => typedText x.1 x.2)).toList := by
      refine break_not_mem_commaSeparated fun item hitem => ?_
      obtain ⟨x, hx, rfl⟩ := List.mem_map.mp hitem
      exact break_not_mem_typedText x.1 (h.2 x hx)
    simp [toString, h.1, harguments]
  | extract n results source index =>
    dsimp only [IRInstruction.operationText]
    simp [toString]
  | insert n results source type operand index =>
    have htyped := break_not_mem_typedText type (h _ (List.mem_singleton_self _))
    dsimp only [IRInstruction.operationText]
    simp [toString, htyped]

theorem break_not_mem_instruction {i : IRInstruction} (h : ∀ text ∈ i.handed, '\n' ∉ text.toList) :
    '\n' ∉ i.text.toList := by
  have hoperation := break_not_mem_operationText h
  unfold IRInstruction.text
  split <;> simp [toString, hoperation]

def IRReturn.handed : IRReturn → List String
  | value _ operand => [operand.text]
  | nothing | aggregate .. => []

theorem break_not_mem_return {r : IRReturn} (h : ∀ text ∈ r.handed, '\n' ∉ text.toList) :
    '\n' ∉ r.text.toList := by
  cases r with
  | nothing => decide
  | value type operand =>
    simp [IRReturn.text, break_not_mem_typedText type (h _ (List.mem_singleton_self _))]
  | aggregate results source => simp [IRReturn.text, toString]

theorem break_not_mem_headLines {f : IRFunction} (hf : '\n' ∉ f.symbol.toList) :
    ∀ line ∈ f.headLines, '\n' ∉ line.toList := by
  have hparameters : '\n' ∉ (commaSeparated (f.parameters.zipIdx.map fun x =>
      s!"{x.1.text} {parameterText x.2}")).toList := by
    refine break_not_mem_commaSeparated fun item hitem => ?_
    obtain ⟨x, -, rfl⟩ := List.mem_map.mp hitem
    simp [toString]
  simp only [IRFunction.headLines, List.forall_mem_cons]
  refine ⟨?_, by decide, List.forall_mem_nil _⟩
  simpa [toString, hf] using hparameters

theorem break_not_mem_declareLine {f : IRFunction} (hf : '\n' ∉ f.symbol.toList) :
    '\n' ∉ f.declareLine.toList := by
  have hparameters : '\n' ∉ (commaSeparated (f.parameters.map IRType.text)).toList := by
    refine break_not_mem_commaSeparated fun item hitem => ?_
    obtain ⟨type, -, rfl⟩ := List.mem_map.mp hitem
    exact break_not_mem_type type
  simp [IRFunction.declareLine, toString, hf, hparameters]

theorem break_not_mem_stringLine (n : Nat) (text : String) : '\n' ∉ (stringLine n text).toList := by
  have hquoted : '\n' ∉ escapedBytes text := fun hmem =>
    absurd (isQuotable_of_mem_escapedBytes hmem) (by decide)
  simp [stringLine, stringText, toString, hquoted]

/-- Nothing that a body has been handed holds a line break. -/
structure IRBody.Lined (b : IRBody) : Prop where
  head : ∀ f, b.head = some f → '\n' ∉ f.symbol.toList
  code : ∀ i ∈ b.code, ∀ text ∈ i.handed, '\n' ∉ text.toList
  last : ∀ text ∈ b.last.handed, '\n' ∉ text.toList

theorem IRBody.Lined.break_not_mem {b : IRBody} (h : b.Lined) :
    ∀ line ∈ b.lines, '\n' ∉ line.toList := by
  intro line hline
  rw [lines, List.mem_append, List.mem_append] at hline
  rcases hline with (hhead | hcode) | hlast
  · cases hb : b.head with
    | none =>
      rw [hb] at hhead
      cases hhead
    | some f =>
      rw [hb] at hhead
      exact break_not_mem_headLines (h.head f hb) line hhead
  · obtain ⟨i, hi, rfl⟩ := List.mem_map.mp hcode
    exact break_not_mem_instruction (h.code i (Array.mem_toList_iff.mp hi))
  · simp only [List.mem_cons, List.not_mem_nil, or_false] at hlast
    rcases hlast with rfl | rfl | rfl
    · exact break_not_mem_return h.last
    · decide
    · decide

/-! ### Modules -/

namespace IRModule
variable {m : IRModule}

def contentLines (m : IRModule) : List String :=
  m.stringLines ++ m.bodies.toList.flatMap IRBody.lines ++ m.declareLines

theorem lines_eq (m : IRModule) : m.lines = m.headLines ++ m.contentLines := by
  rw [lines, contentLines, List.append_assoc, List.append_assoc, List.append_assoc]

/-- The text of a module is that of its heading, and that of its contents behind it. -/
theorem text_eq (m : IRModule) : m.text = linesText m.headLines ++ linesText m.contentLines := by
  rw [← linesText_append, ← lines_eq]
  rfl

theorem text_push {bodies : Array IRBody} {b : IRBody} (h : m.bodies = bodies.push b) :
    m.text = linesText (m.headLines ++ m.stringLines ++ bodies.toList.flatMap IRBody.lines) ++
      linesText b.lines ++ linesText m.declareLines := by
  have hlines : m.lines = m.headLines ++ m.stringLines ++ bodies.toList.flatMap IRBody.lines ++
      b.lines ++ m.declareLines := by
    simp [lines, h]
  rw [← linesText_append, ← linesText_append, ← hlines]
  rfl

theorem constants_contentLines (m : IRModule) : m.contentLines.filterMap constant? =
    m.strings.toList.zipIdx.map fun x => StringConstant.ofText x.2 x.1 := by
  rw [← m.constants_lines, lines_eq, List.filterMap_append, constants_of_head fun _ => head?_head,
    List.nil_append]

/-- No body that the module has and no function that it has declared has been handed a line break. -/
structure Lined (m : IRModule) : Prop where
  bodies : ∀ b ∈ m.bodies, b.Lined
  declared : ∀ {f b}, (f, b) ∈ m.declared → '\n' ∉ f.symbol.toList

theorem break_not_mem_stringLines (m : IRModule) :
    ∀ line ∈ m.stringLines, '\n' ∉ line.toList := by
  intro line hline
  rw [stringLines_eq] at hline
  split_ifs at hline
  · cases hline
  · rcases List.mem_append.mp hline with hline | hline
    · obtain ⟨x, -, rfl⟩ := List.mem_map.mp hline
      exact break_not_mem_stringLine x.2 x.1
    · rw [List.mem_singleton.mp hline]
      decide

theorem constants_stringLines (m : IRModule) :
    (textLines (linesText m.stringLines)).filterMap constant? =
      m.strings.toList.zipIdx.map fun x => StringConstant.ofText x.2 x.1 := by
  rw [textLines_linesText m.break_not_mem_stringLines, m.constants_of_stringLines]

theorem Lined.break_not_mem_declareLines (h : m.Lined) :
    ∀ line ∈ m.declareLines, '\n' ∉ line.toList := by
  intro line hline
  rw [declareLines_eq] at hline
  split_ifs at hline
  · cases hline
  · rcases List.mem_cons.mp hline with rfl | hline
    · decide
    · rcases List.mem_append.mp hline with hexternal | hhelper
      · obtain ⟨f, hf, rfl⟩ := List.mem_map.mp hexternal
        exact break_not_mem_declareLine (h.declared (mem_external.mp hf))
      · split_ifs at hhelper
        · rw [List.mem_singleton.mp hhelper]
          decide +kernel
        · cases hhelper

theorem Lined.break_not_mem (h : m.Lined) : ∀ line ∈ m.contentLines, '\n' ∉ line.toList := by
  intro line hline
  rw [contentLines, List.mem_append, List.mem_append] at hline
  rcases hline with (hstring | hbody) | hdeclare
  · exact m.break_not_mem_stringLines line hstring
  · obtain ⟨b, hb, hmem⟩ := List.mem_flatMap.mp hbody
    exact (h.bodies b (Array.mem_toList_iff.mp hb)).break_not_mem line hmem
  · exact h.break_not_mem_declareLines line hdeclare

/-- Behind its heading, the text of a module is cut into the lines of its contents. -/
theorem Lined.textLines_contentLines (h : m.Lined) :
    textLines (linesText m.contentLines) = m.contentLines :=
  textLines_linesText h.break_not_mem

/-- The whole text of a module is cut into its lines, if its name and its triple hold no line break
either. -/
theorem Lined.textLines_text (h : m.Lined) (hname : '\n' ∉ m.name.toList)
    (htriple : '\n' ∉ m.triple.toList) : textLines m.text = m.lines := by
  have hhead : ∀ line ∈ m.headLines, '\n' ∉ line.toList := by
    simp only [headLines, List.forall_mem_cons]
    refine ⟨?_, ?_, ?_, by decide, List.forall_mem_nil _⟩ <;> simp [toString, hname, htriple]
  rw [text_eq, ← linesText_append, lines_eq]
  exact textLines_linesText (List.forall_mem_append.mpr ⟨hhead, h.break_not_mem⟩)

end IRModule
end StackEffect
