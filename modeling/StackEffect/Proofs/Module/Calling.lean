import StackEffect.Proofs.Module.WellFormed

/-!
What bodies call. The calls in the code of a body are those of the nodes of a definition, one after
the other, each under the symbol of the function of the word that is called (`Reachable.calls`). The
lines of the body call the same symbols, and that of the helper where an integer is cast
(`Reachable.calledSymbols_lines`).
-/
namespace StackEffect

def IRInstruction.callee? : IRInstruction → Option String
  | call _ _ symbol _ => some symbol
  | _ => none

def IRBody.callees (b : IRBody) : List String := b.code.toList.filterMap IRInstruction.callee?

def Node.callee? (n : Node) : Option WordId :=
  match n.kind with
  | .call callee => some callee.word
  | _ => none

def Definition.callees (f : Definition) : List WordId :=
  f.graph.nodes.toList.filterMap Node.callee?

namespace IRModule
variable {d : Dictionary} {m m' : IRModule} {functions functions' : FunctionTable IRModule.target}

/-- The function of the word has the symbol. -/
def Names (functions : FunctionTable IRModule.target) (id : WordId) (symbol : String) : Prop :=
  ∃ f, functions[id]? = some (some f) ∧ f.symbol = symbol

/-! ### Code -/

@[simp] theorem callee?_extractions (first : Nat) (f : IRFunction) :
    (extractions first f).filterMap IRInstruction.callee? = [] := by
  rw [List.filterMap_eq_nil_iff]
  intro i hi
  unfold extractions at hi
  split_ifs at hi
  · cases hi
  · obtain ⟨index, -, rfl⟩ := List.mem_map.mp hi
    rfl

@[simp] theorem callee?_packing (first : Nat) (f : IRFunction) (outputs : List IROperand) :
    (packing first f outputs).filterMap IRInstruction.callee? = [] := by
  rw [List.filterMap_eq_nil_iff]
  intro i hi
  unfold packing at hi
  split at hi
  · cases hi
  · cases hi
  · obtain ⟨x, -, rfl⟩ := List.mem_map.mp hi
    rfl

theorem callees_ofCode (f : IRFunction) (code : List IRInstruction) (outputs : List IROperand) :
    (IRBody.ofCode f code outputs).callees = code.filterMap IRInstruction.callee? := by
  simp [IRBody.callees, IRBody.ofCode]

theorem Selected.names {strings : Array String} {first : Nat} {n : Node}
    {operands results : List IROperand} {code : List IRInstruction}
    (h : Selected functions strings first n.kind operands code results) :
    List.Forall₂ (Names functions) n.callee?.toList (code.filterMap IRInstruction.callee?) := by
  obtain ⟨kind, inputs⟩ := n
  cases h with
  | @call callee f operands hf =>
    have hcode : (callCode first f operands).filterMap IRInstruction.callee? = [f.symbol] := by
      rw [callCode, List.filterMap_cons, callee?_extractions]
      rfl
    rw [hcode]
    exact .cons ⟨f, Option.join_eq_some_iff.mp hf, rfl⟩ .nil
  | literal | argument | shuffle | integer | float | cast => exact .nil

/-- The code of the nodes calls what the nodes call, one after the other. -/
theorem Lowered.names {strings : Array String} {nodes : List Node} {table : Table IROperand}
    {code : List IRInstruction} (h : Lowered functions strings nodes table code) :
    List.Forall₂ (Names functions) (nodes.filterMap Node.callee?)
      (code.filterMap IRInstruction.callee?) := by
  induction h with
  | none => exact .nil
  | @node _ _ _ n _ _ _ _ _ hselected _ ih =>
    have hone : [n].filterMap Node.callee? = n.callee?.toList := by
      cases hn : n.callee? <;> simp [hn]
    rw [List.filterMap_append, List.filterMap_append, hone]
    exact List.rel_append ih hselected.names

/-! ### Modules -/

/-- Each body makes the calls of a definition, and belongs to its function. -/
def Calls (d : Dictionary) (m : IRModule) (functions : FunctionTable IRModule.target) : Prop :=
  ∀ b ∈ m.bodies, ∃ id f g, Stands d functions id (.compiled f) g ∧ b.head = some g ∧
    List.Forall₂ (Names functions) f.callees b.callees

theorem Names.push {id : WordId} {symbol : String} (h : Names functions id symbol)
    (x : Option IRFunction) : Names (functions.push x) id symbol := by
  obtain ⟨f, hf, hsymbol⟩ := h
  exact ⟨f, (getElem?_push_of_lt (Array.getElem?_eq_some_iff.mp hf).1 x).trans hf, hsymbol⟩

theorem Names.of_push {id : WordId} {symbol : String} (h : Names (functions.push none) id symbol) :
    Names functions id symbol := by
  obtain ⟨f, hf, hsymbol⟩ := h
  rw [Array.getElem?_push] at hf
  split_ifs at hf
  · cases hf
  · exact ⟨f, hf, hsymbol⟩

theorem Calls.enter (hl : Linked d m functions) (h : Calls d m functions) (w : Word)
    (x : Option IRFunction) (hbodies : m'.bodies = m.bodies) :
    Calls (d.enter w) m' (functions.push x) := by
  intro b hb
  obtain ⟨id, f, g, hs, hhead, hcalls⟩ := h b (hbodies ▸ hb)
  exact ⟨id, f, g, (stands_enter hl).mpr (.inl hs), hhead, hcalls.imp fun _ _ hn => hn.push x⟩

theorem lasting_calls : Session.Lasting (T := IRModule.target) fun d m functions =>
    Linked d m functions ∧ Calls d m functions where
  markInline id hi := by
    refine ⟨lasting_linked.markInline id hi.1, fun b hb => ?_⟩
    obtain ⟨i, f, g, hs, hrest⟩ := hi.2 b hb
    exact ⟨i, f, g, stands_markInline.mpr hs, hrest⟩
  execute _ _ hi := hi
  takeOutput hi := hi
  declare hi hv hd :=
    ⟨lasting_linked.declare hi.1 hv hd, hi.2.enter hi.1 _ _ (bodies_of_declare "" hd)⟩
  declareFailed hi hd := by
    obtain ⟨rfl, -⟩ := declare_eq_error "" hd
    exact hi
  abandon name hi := ⟨lasting_linked.abandon name hi.1, hi.2.enter hi.1 _ _ rfl⟩
  define {d m functions name body draft g m'} hi hread hg := by
    refine ⟨lasting_linked.define hi.1 hread hg, ?_⟩
    obtain ⟨m₁, table, code, operands, strings, uses, -, -, hd, hlowered, -, -, rfl⟩ :=
      generate_eq_ok (Session.sound_toDefinition hi.1.sound hread) hg
    rw [hi.1.complete_eq]
    intro b hb
    rw [bodies_withBody, bodies_of_declare _ hd] at hb
    rcases Array.mem_push.mp hb with hb | rfl
    · exact hi.2.enter hi.1 _ (some g) rfl b hb
    · refine ⟨d.size, _, g, (stands_enter hi.1).mpr (.inr ⟨rfl, rfl, rfl⟩), rfl, ?_⟩
      rw [callees_ofCode]
      exact hlowered.names.imp fun _ _ hn => hn.of_push.push _
  defineFailed {d m functions name body draft e m'} hi hread hg := by
    obtain ⟨rfl, -⟩ := hi.1.generate_eq_error hread hg
    exact ⟨lasting_linked.abandon name hi.1, hi.2.enter hi.1 _ _ rfl⟩

end IRModule

/-! ### Lines -/

def calledSymbol? (line : String) : Option String :=
  instruction? line >>= IRInstruction.callee?

theorem calledSymbol?_text {i : IRInstruction} (hi : i.Legible) :
    calledSymbol? i.text = i.written.callee? := by
  rw [calledSymbol?, instruction?_text hi]
  rfl

theorem calledSymbol?_of_word {line word : String} {words : List String}
    (h : lexemes line = word :: words) (hcall : word ≠ "call") (htarget : temporary? word = none) :
    calledSymbol? line = none := by
  have hread : instruction? line = none := by
    rw [instruction?, h]
    split
    · rename_i hwords
      exact absurd (List.cons.inj hwords).1 hcall
    · rename_i hwords
      cases hwords
      rw [htarget]
      rfl
    · rfl
  rw [calledSymbol?, hread]
  rfl

theorem calledSymbol?_defineLine (f : IRFunction) : calledSymbol? f.defineLine = none := by
  have hwords : lexemes f.defineLine = ["define"] ++ _ :=
    lexemes_behind ["define"] (by decide) (by decide) _
  exact calledSymbol?_of_word hwords (by decide) (by decide)

theorem calledSymbol?_return (r : IRReturn) : calledSymbol? r.text = none := by
  have hwords : ∃ rest, r.text = "  ret " ++ rest := by
    cases r with
    | nothing => exact ⟨"void", rfl⟩
    | value type operand => exact ⟨_, rfl⟩
    | aggregate results source =>
      exact ⟨resultText results ++ (" " ++ sourceText source),
        String.toList_injective (by simp [IRReturn.text, toString])⟩
  obtain ⟨rest, htext⟩ := hwords
  rw [htext]
  exact calledSymbol?_of_word (lexemes_behind ["ret"] (by decide) (by decide) rest) (by decide)
    (by decide)

/-- The lines of a body call what the body as it is written calls. -/
theorem IRBody.Legible.calledSymbols {b : IRBody} (hb : b.Legible) :
    b.lines.filterMap calledSymbol? = b.written.callees := by
  obtain ⟨f, hf, -, -⟩ := hb.head
  have hcode : (b.code.toList.map IRInstruction.text).filterMap calledSymbol? =
      b.written.callees := by
    rw [IRBody.callees, IRBody.written, Array.toList_map, List.filterMap_map, List.filterMap_map]
    exact List.filterMap_congr fun i hi => calledSymbol?_text (hb.code i hi)
  have hfront : f.headLines.filterMap calledSymbol? = [] := by
    rw [f.headLines_eq, List.filterMap_cons_none (calledSymbol?_defineLine f)]
    decide +kernel
  have hback : [b.last.text, "\x7d", ""].filterMap calledSymbol? = [] := by
    rw [List.filterMap_cons_none (calledSymbol?_return b.last)]
    decide +kernel
  rw [IRBody.lines, hf, Option.map_some, Option.getD_some, List.filterMap_append,
    List.filterMap_append, hfront, hcode, hback, List.nil_append, List.append_nil]

theorem callee?_written (i : IRInstruction) : i.written.callee? = i.callee? ∨
    i.callee? = none ∧ i.written.callee? = some intToStringSymbol := by
  rcases i with _ | _ | ⟨_, _ | _ | _, _⟩ | _ | _ | _
  case cast.intToString => exact .inr ⟨rfl, rfl⟩
  all_goals exact .inl rfl

/-- Beside the calls in its code, a body as it is written has only calls of the helper. -/
theorem IRBody.callees_written (b : IRBody) : b.callees.Sublist b.written.callees ∧
    ∀ symbol ∈ b.written.callees, symbol ∈ b.callees ∨ symbol = intToStringSymbol := by
  have hwritten : b.written.callees =
      b.code.toList.filterMap fun i => i.written.callee? := by
    rw [callees, written, Array.toList_map, List.filterMap_map]
    rfl
  rw [hwritten, callees]
  constructor
  · induction b.code.toList with
    | nil => exact .slnil
    | cons i code ih =>
      rcases callee?_written i with hi | ⟨hi, hhelper⟩
      · cases hcallee : i.callee? with
        | none => simpa [List.filterMap_cons, hi, hcallee] using ih
        | some symbol => simpa [List.filterMap_cons, hi, hcallee] using ih
      · simpa [List.filterMap_cons, hi, hhelper] using ih.cons intToStringSymbol
  · intro symbol hsymbol
    obtain ⟨i, hi, hcallee⟩ := List.mem_filterMap.mp hsymbol
    rcases callee?_written i with hsame | ⟨-, hhelper⟩
    · exact .inl (List.mem_filterMap.mpr ⟨i, hi, hsame ▸ hcallee⟩)
    · exact .inr (Option.some.inj (hcallee.symm.trans hhelper))

namespace Session
variable {name triple : String} {s : Session IRModule.target}

theorem Reachable.calls (h : Reachable ({ name, triple } : IRModule) s) :
    IRModule.Calls s.dictionary s.target s.functions :=
  (h.holds IRModule.lasting_calls ⟨IRModule.linked_withBuiltins name triple,
    fun _ hb => absurd hb (Array.not_mem_empty _)⟩).2

theorem Reachable.calledSymbols_lines (h : Reachable ({ name, triple } : IRModule) s) {b : IRBody}
    (hb : b ∈ s.target.bodies) : b.lines.filterMap calledSymbol? = b.written.callees := by
  obtain ⟨fs, hdefines⟩ := h.defines
  exact (h.wellFormed_module.legible hdefines b hb).calledSymbols

end Session
end StackEffect
