import StackEffect.IRTarget
import StackEffect.Proofs.Definition.Splice
import StackEffect.Proofs.Emission
import StackEffect.Proofs.Module.Declaring

/-!
The code of a body of a module. Each node but a shuffle is a value that is there already or becomes
instructions which assign new temporaries (`Selected`); several outputs are put into a structure in
the end (`packing`). Whatever a body is generated from, its code is put together in this way
(`compile_eq_ok`).
-/
namespace StackEffect

def targets (code : List IRInstruction) : List Nat := code.filterMap IRInstruction.target?

@[simp] theorem targets_nil : targets [] = [] := rfl

@[simp] theorem targets_append (code more : List IRInstruction) :
    targets (code ++ more) = targets code ++ targets more := List.filterMap_append

/-- Takes the structure with several results of a function apart, place by place. -/
def extractions (first : Nat) (f : IRFunction) : List IRInstruction :=
  if f.results.length ≤ 1 then []
  else (List.range f.results.length).map fun index => .extract (first + 1 + index) f.results first index

/-- A call of a function that returns something assigns the temporary `first`, and several results
are taken apart into those that follow. -/
def callCode (first : Nat) (f : IRFunction) (operands : List IROperand) : List IRInstruction :=
  .call (if f.results = [] then none else some first) f.results f.symbol (f.parameters.zip operands)
    :: extractions first f

def callResults (first : Nat) (f : IRFunction) : List IROperand :=
  if f.results.length ≤ 1 then f.results.map fun _ => .temporary first
  else (List.range f.results.length).map fun index => .temporary (first + 1 + index)

@[simp] theorem length_callResults (first : Nat) (f : IRFunction) :
    (callResults first f).length = f.results.length := by
  unfold callResults
  split <;> simp

/-- The temporary with a structure of which `count` places have been filled, the first of them by
the instruction that assigns `first`. -/
def filled (first count : Nat) : Option Nat := if count = 0 then none else some (first + count - 1)

theorem filled_succ (first count : Nat) : filled first (count + 1) = some (first + count) := by
  simp [filled]

def insertion (first : Nat) (results : List IRType) (index : Nat) (operand : IROperand)
    (type : IRType) : IRInstruction :=
  .insert (first + index) results (filled first index) type operand index

/-- Puts operands into a structure, each into the place of its number. -/
def insertions (first : Nat) (results : List IRType) (operands : List IROperand) :
    List IRInstruction :=
  (operands.zip results).zipIdx.map fun ((operand, type), index) =>
    insertion first results index operand type

/-- The end of a body: several outputs are put into a structure. -/
def packing (first : Nat) (f : IRFunction) (outputs : List IROperand) : List IRInstruction :=
  match outputs with
  | [] | [_] => []
  | outputs => insertions first f.results outputs

def returned (first : Nat) (f : IRFunction) (outputs : List IROperand) : IRReturn :=
  match outputs, f.results with
  | [], _ => .nothing
  | [operand], type :: _ => .value type operand
  | outputs, results => .aggregate results (filled first outputs.length)

/-- A body with the code of its nodes and the operands of its outputs. -/
def IRBody.ofCode (f : IRFunction) (code : List IRInstruction) (outputs : List IROperand) :
    IRBody where
  head := some f
  code := (code ++ packing (targets code).length f outputs).toArray
  last := returned (targets code).length f outputs

namespace IRModule

def extend (m : IRModule) (code : List IRInstruction) (strings : Array String)
    (usesIntToString : Bool) : IRModule :=
  { m with
    code := m.code ++ code
    temporaries := m.temporaries + (targets code).length
    strings, usesIntToString }

theorem extend_nil (m : IRModule) : m.extend [] m.strings m.usesIntToString = m := by
  simp [extend]

theorem extend_extend (m : IRModule) (code more : List IRInstruction) (strings strings' : Array String)
    (uses uses' : Bool) :
    (m.extend code strings uses).extend more strings' uses' = m.extend (code ++ more) strings' uses' := by
  have hcode : m.code ++ code ++ more = m.code ++ (code ++ more) := Array.ext' (by simp)
  simp [extend, Nat.add_assoc, hcode]

/-! ### Code for a node -/

/-- The operand of a constant; a string is a global. -/
inductive Represents (strings : Array String) : Value → IROperand → Prop
  | int (n : Int32) : Represents strings (.int n) (.int n)
  | float (x : Float32) : Represents strings (.float x) (.float x)
  | string {s : String} {n : Nat} : strings[n]? = some s → Represents strings (.str s) (.string n)

/-- The code and the results of a node, where `first` is the next temporary. -/
inductive Selected (functions : FunctionTable IRModule.target) (strings : Array String)
    (first : Nat) : NodeKind → List IROperand → List IRInstruction → List IROperand → Prop
  | literal {value : Value} {operand : IROperand} (operands : List IROperand) :
      Represents strings value operand →
      Selected functions strings first (.literal value) operands [] [operand]
  | argument (index : Nat) (type : ValueType) (operands : List IROperand) :
      Selected functions strings first (.argument index type) operands [] [.parameter index]
  | shuffle (s : Shuffle) (operands : List IROperand) :
      Selected functions strings first (.primitive (.shuffle s)) operands []
        (s.sources.filterMap (operands[·]?))
  | integer (op : BinaryOp) (left right : IROperand) (rest : List IROperand) :
      Selected functions strings first (.primitive (.binary op .int32)) (left :: right :: rest)
        [.integerOp first op left right] [.temporary first]
  | float (op : BinaryOp) (left right : IROperand) (rest : List IROperand) :
      Selected functions strings first (.primitive (.binary op .float)) (left :: right :: rest)
        [.floatOp first op left right] [.temporary first]
  | cast (c : Cast) (operand : IROperand) (rest : List IROperand) :
      Selected functions strings first (.primitive (.cast c)) (operand :: rest)
        [.cast first c operand] [.temporary first]
  | call {callee : Callee} {f : IRFunction} (operands : List IROperand) :
      (functions[callee.word]?).join = some f →
      Selected functions strings first (.call callee) operands (callCode first f operands)
        (callResults first f)

/-- A string that the module has keeps its number; any other gets the next one. -/
theorem stringGlobal_cases (s : String) (m : IRModule) :
    (∃ n, stringGlobal s m = .ok n m ∧ m.strings[n]? = some s) ∨
      s ∉ m.strings ∧
        stringGlobal s m = .ok m.strings.size { m with strings := m.strings.push s } := by
  unfold stringGlobal
  cases h : m.strings.idxOf? s with
  | some n =>
    rw [Array.idxOf?_eq_map_finIdxOf?_val] at h
    obtain ⟨i, hi, rfl⟩ := Option.map_eq_some_iff.mp h
    have hs := (Array.finIdxOf?_eq_some_iff.mp hi).1
    refine .inl ⟨i, rfl, ?_⟩
    rw [Array.getElem?_eq_getElem i.isLt]
    exact congrArg some hs
  | none => exact .inr ⟨Array.idxOf?_eq_none_iff.mp h, rfl⟩

theorem stringGlobal_apply (s : String) (m : IRModule) : ∃ n strings,
    stringGlobal s m = .ok n (m.extend [] strings m.usesIntToString) ∧ strings[n]? = some s ∧
      m.strings.toList <+: strings.toList := by
  rcases stringGlobal_cases s m with ⟨n, hn, hs⟩ | ⟨-, hnew⟩
  · exact ⟨n, m.strings, by rw [extend_nil, hn], hs, List.prefix_rfl⟩
  · refine ⟨m.strings.size, m.strings.push s, ?_, Array.getElem?_push_size, ?_⟩
    · rw [hnew]
      simp [extend]
    · rw [Array.toList_push]
      exact List.prefix_append ..

theorem extend_assign (m : IRModule) {i : IRInstruction} {n : Nat} (hi : i.target? = some n)
    (strings : Array String) (uses : Bool) : m.extend [i] strings uses =
      { m with
        code := m.code.push i, temporaries := m.temporaries + 1
        strings, usesIntToString := uses } := by
  simp [extend, targets, hi]

theorem extracts_apply {results : List IRType} {source base : Nat} (start count : Nat)
    (m : IRModule) (hm : m.temporaries = base + start) :
    ((List.range' start count).mapM fun index => do
      let field ← newTemporary
      append (.extract field results source index)
      return IROperand.temporary field : Action IRModule _) m =
      .ok ((List.range' start count).map fun index => .temporary (base + index))
        (m.extend ((List.range' start count).map fun index =>
          .extract (base + index) results source index) m.strings m.usesIntToString) := by
  induction count generalizing start m with
  | zero => exact congrArg _ m.extend_nil.symm
  | succ count ih =>
    have hfirst : (do
        let field ← newTemporary
        append (.extract field results source start)
        return IROperand.temporary field : Action IRModule _) m =
        .ok (.temporary (base + start)) (m.extend [.extract (base + start) results source start]
          m.strings m.usesIntToString) := by
      rw [extend_assign m rfl, ← hm]
      rfl
    rw [List.range'_succ, List.mapM_cons, Action.bind_of_ok hfirst, Action.bind_of_ok (ih _ _ ?_)]
    · exact congrArg (EStateM.Result.ok _) (extend_extend ..)
    · rw [extend_assign m rfl, hm, Nat.add_assoc]

theorem emitCall_apply (f : IRFunction) (operands : List IROperand) (m : IRModule) :
    emitCall f operands m = .ok (callResults m.temporaries f)
      (m.extend (callCode m.temporaries f operands) m.strings m.usesIntToString) := by
  have hnew : newTemporary m = .ok m.temporaries { m with temporaries := m.temporaries + 1 } := rfl
  unfold emitCall callCode extractions callResults
  by_cases hmany : f.results.length ≤ 1
  · cases hr : f.results with
    | nil => simp [append, extend, targets, IRInstruction.target?, Action.bind_apply]
    | cons type results =>
      obtain rfl : results = [] := by simpa [hr] using hmany
      have hone : [type] ≠ [] := List.cons_ne_nil _ _
      simp only [hone, if_false, List.length_singleton, Nat.le_refl, if_true]
      rw [extend_assign m rfl]
      rfl
  · have hempty : f.results ≠ [] := by
      rintro hr
      simp [hr] at hmany
    have hone : f.results.length ≠ 1 := fun h => hmany (Nat.le_of_eq h)
    let called : IRModule := m.extend [.call (some m.temporaries) f.results f.symbol
      (f.parameters.zip operands)] m.strings m.usesIntToString
    have hcalled : called.temporaries = m.temporaries + 1 + 0 := congrArg _ (extend_assign m rfl _ _)
    have hcall : append (.call (some m.temporaries) f.results f.symbol
        (f.parameters.zip operands)) { m with temporaries := m.temporaries + 1 } = .ok () called := by
      simp only [called]
      rw [extend_assign m rfl]
      rfl
    simp only [List.isEmpty_iff, hempty, hone, hmany, if_false]
    rw [Action.bind_of_ok hnew, Action.bind_of_ok hcall, List.range_eq_range',
      extracts_apply 0 _ called hcalled]
    exact congrArg (EStateM.Result.ok _) (extend_extend ..)

theorem emitPrimitive_eq_ok (functions : FunctionTable IRModule.target) {p : Primitive}
    {operands results : List IROperand} {m m' : IRModule}
    (h : emitPrimitive p operands m = .ok results m') : ∃ code uses,
      Selected functions m.strings m.temporaries (.primitive p) operands code results ∧
      m' = m.extend code m.strings uses := by
  have hnew : newTemporary m = .ok m.temporaries { m with temporaries := m.temporaries + 1 } := rfl
  rw [emitPrimitive, Action.bind_of_ok hnew] at h
  split at h
  · cases h
    exact ⟨_, m.usesIntToString, .integer .., (extend_assign m rfl _ _).symm⟩
  · cases h
    exact ⟨_, m.usesIntToString, .float .., (extend_assign m rfl _ _).symm⟩
  · cases h
    exact ⟨_, true, .cast .., (extend_assign m rfl _ _).symm⟩
  · cases h
    exact ⟨_, m.usesIntToString, .cast .., (extend_assign m rfl _ _).symm⟩
  · cases h

theorem emitLiteral_apply (value : Value) (m : IRModule) : ∃ operand strings,
    emitLiteral value m = .ok operand (m.extend [] strings m.usesIntToString) ∧
      Represents strings value operand ∧ m.strings.toList <+: strings.toList := by
  cases value with
  | int n => exact ⟨.int n, m.strings, by rw [extend_nil]; rfl, .int n, List.prefix_rfl⟩
  | float x => exact ⟨.float x, m.strings, by rw [extend_nil]; rfl, .float x, List.prefix_rfl⟩
  | str s =>
    obtain ⟨n, strings, hn, hs, hprefix⟩ := stringGlobal_apply s m
    exact ⟨.string n, strings, Action.map_eq_ok.mpr ⟨n, hn, rfl⟩, .string hs, hprefix⟩

/-- What is generated for a node goes to the end of the body. -/
theorem emit_eq_ok {g : Graph} {functions : FunctionTable IRModule.target} {id : NodeId}
    {kind : NodeKind} {operands results : List IROperand} {m m' : IRModule}
    (h : Emission.emit g functions id kind operands m = .ok results m') : ∃ code strings uses,
      Selected functions strings m.temporaries kind operands code results ∧
      m.strings.toList <+: strings.toList ∧ m' = m.extend code strings uses := by
  unfold Emission.emit at h
  cases kind with
  | literal value =>
    obtain ⟨operand, strings, hvalue, hrepresents, hprefix⟩ := emitLiteral_apply value m
    obtain ⟨operand', m₁, h₁, h⟩ := Action.bind_eq_ok.mp h
    cases hvalue.symm.trans h₁
    cases h
    exact ⟨[], strings, m.usesIntToString, .literal operands hrepresents, hprefix, rfl⟩
  | argument index type =>
    obtain ⟨type', m₁, h₁, h⟩ := Action.bind_eq_ok.mp h
    obtain ⟨-, rfl⟩ := Action.ofExcept_eq_ok.mp h₁
    obtain ⟨operand, m₂, h₂, h⟩ := Action.bind_eq_ok.mp h
    obtain ⟨_, m₃, h₃, h₂⟩ := Action.bind_eq_ok.mp h₂
    obtain ⟨_, h₃⟩ := Action.discard_eq_ok.mp h₃
    obtain ⟨-, rfl⟩ := Action.ofExcept_eq_ok.mp h₃
    cases h₂
    cases h
    exact ⟨[], m.strings, m.usesIntToString, .argument index type operands, List.prefix_rfl,
      m.extend_nil.symm⟩
  | primitive p =>
    cases p with
    | shuffle s =>
      cases h
      exact ⟨[], m.strings, m.usesIntToString, .shuffle s operands, List.prefix_rfl,
        m.extend_nil.symm⟩
    | binary op type =>
      obtain ⟨code, uses, hselected, rfl⟩ := emitPrimitive_eq_ok functions h
      exact ⟨code, m.strings, uses, hselected, List.prefix_rfl, rfl⟩
    | cast c =>
      obtain ⟨code, uses, hselected, rfl⟩ := emitPrimitive_eq_ok functions h
      exact ⟨code, m.strings, uses, hselected, List.prefix_rfl, rfl⟩
  | call callee =>
    cases hf : (functions[callee.word]?).join with
    | none =>
      simp only [hf] at h
      cases h
    | some f =>
      simp only [hf] at h
      cases (emitCall_apply f operands m).symm.trans h
      exact ⟨_, m.strings, m.usesIntToString, .call operands hf, List.prefix_rfl, rfl⟩

def Covers (functions : FunctionTable IRModule.target) (V : Vocabulary) : Prop :=
  ∀ c, V c → ∃ f : IRFunction, (functions[c.word]?).join = some f ∧
    f.results.length = c.signature.outputArity

/-- There is code for each node of a sound graph, if its arguments have types that have counterparts
and the words have functions. -/
theorem emits {V : Vocabulary} {g : Graph} {functions : FunctionTable IRModule.target}
    (hg : g.Sound V) (harguments : ∀ {id index declared inputs},
      g.node? id = some ⟨.argument index declared, inputs⟩ →
      ∃ type lowered, g.outputType ⟨id, 0⟩ = .ok type ∧ IRType.ofValueType type = .ok lowered)
    (hwords : Covers functions V) :
    Emission.Emits g functions fun _ : IRModule => True := by
  rintro id ⟨kind, inputs⟩ operands m hn hl -
  have harity := hl.trans (hg.ordered.length hn)
  cases kind with
  | literal value =>
    obtain ⟨operand, strings, hvalue, -⟩ := emitLiteral_apply value m
    exact ⟨_, _, Action.bind_eq_ok.mpr ⟨_, _, hvalue, rfl⟩, rfl, trivial⟩
  | argument index declared =>
    obtain ⟨type, lowered, htype, hlowered⟩ := harguments hn
    have hemit : emitArgument index type m = .ok (.parameter index) m := by
      rw [emitArgument, hlowered]
      rfl
    exact ⟨_, _, Action.bind_eq_ok.mpr ⟨type, m, Action.ofExcept_eq_ok.mpr ⟨htype, rfl⟩,
      Action.bind_eq_ok.mpr ⟨_, _, hemit, rfl⟩⟩, rfl, trivial⟩
  | primitive p =>
    have hregular : p.Regular := hg.words hn
    cases p with
    | shuffle s =>
      refine ⟨_, m, rfl, ?_, trivial⟩
      have hsources : ∀ i ∈ s.sources, ∃ r, operands[i]? = some r := fun i hi =>
        ⟨_, List.getElem?_eq_getElem (harity.symm ▸ Shuffle.lt_arity_of_mem_sources hi)⟩
      exact (Pointwise.filterMap hsources).length_eq.symm
    | binary op type =>
      obtain ⟨left, right, rfl⟩ := List.length_eq_two.mp harity
      rcases hregular with rfl | rfl
      · exact ⟨_, _, rfl, rfl, trivial⟩
      · exact ⟨_, _, rfl, rfl, trivial⟩
    | cast c =>
      obtain ⟨source, rfl⟩ := List.length_eq_one_iff.mp harity
      cases c <;> exact ⟨_, _, rfl, rfl, trivial⟩
  | call callee =>
    obtain ⟨f, hf, hcount⟩ := hwords callee (hg.words hn)
    refine ⟨callResults m.temporaries f,
      m.extend (callCode m.temporaries f operands) m.strings m.usesIntToString, ?_, ?_, trivial⟩
    · simp only [Emission.emit, hf]
      exact emitCall_apply f operands m
    · exact (length_callResults ..).trans hcount

/-! ### Code for a body -/

/-- The code of the first nodes of a graph, with the operands of their outputs. -/
inductive Lowered (functions : FunctionTable IRModule.target) (strings : Array String) :
    List Node → Table IROperand → List IRInstruction → Prop
  | none : Lowered functions strings [] #[] []
  | node {nodes table code n operands results more} : Lowered functions strings nodes table code →
      table.Reads n.inputs operands →
      Selected functions strings (targets code).length n.kind operands more results →
      results.length = n.outputArity →
      Lowered functions strings (nodes ++ [n]) (table.add results) (code ++ more)

section Strings
variable {functions : FunctionTable IRModule.target} {strings strings' : Array String}
  (h : strings.toList <+: strings'.toList)
include h

theorem getElem?_of_isPrefix {n : Nat} {s : String} (hn : strings[n]? = some s) :
    strings'[n]? = some s := by
  rw [← Array.getElem?_toList] at hn ⊢
  obtain ⟨hlt, rfl⟩ := List.getElem?_eq_some_iff.mp hn
  exact List.prefix_iff_getElem?.mp h n hlt

theorem Represents.mono {value : Value} {operand : IROperand}
    (hr : Represents strings value operand) : Represents strings' value operand := by
  cases hr with
  | int n => exact .int n
  | float x => exact .float x
  | string hs => exact .string (getElem?_of_isPrefix h hs)

theorem Selected.mono {first : Nat} {kind : NodeKind} {operands results : List IROperand}
    {code : List IRInstruction} (hs : Selected functions strings first kind operands code results) :
    Selected functions strings' first kind operands code results := by
  cases hs with
  | literal operands hr => exact .literal operands (hr.mono h)
  | argument index type operands => exact .argument index type operands
  | shuffle s operands => exact .shuffle s operands
  | integer op left right rest => exact .integer op left right rest
  | float op left right rest => exact .float op left right rest
  | cast c operand rest => exact .cast c operand rest
  | call operands hf => exact .call operands hf

theorem Lowered.mono {nodes : List Node} {table : Table IROperand} {code : List IRInstruction}
    (hl : Lowered functions strings nodes table code) :
    Lowered functions strings' nodes table code := by
  induction hl with
  | none => exact .none
  | node _ hreads hs hcount ih => exact .node ih hreads (hs.mono h) hcount

end Strings

theorem lowered_of_generated {g : Graph} {functions : FunctionTable IRModule.target}
    {m m' : IRModule.target.State} {nodes : List Node} {table : Table IRModule.target.Operand}
    (hm : IRModule.temporaries m = 0) (h : Generated g functions m nodes table m') :
    ∃ code strings uses, m' = IRModule.extend m code strings uses ∧
      m.strings.toList <+: strings.toList ∧ Lowered functions strings nodes table code := by
  induction h with
  | none =>
    exact ⟨[], m.strings, m.usesIntToString, m.extend_nil.symm, List.prefix_rfl, .none⟩
  | @node nodes table t n operands results t' _ hreads hemit hcount ih =>
    obtain ⟨code, strings, uses, rfl, hprefix, hlowered⟩ := ih
    obtain ⟨more, strings', uses', hselected, hprefix', rfl⟩ := emit_eq_ok hemit
    have hfirst : (m.extend code strings uses).temporaries = (targets code).length := by
      simp [extend, hm]
    refine ⟨code ++ more, strings', uses', extend_extend .., hprefix.trans hprefix', ?_⟩
    exact .node (hlowered.mono hprefix') hreads (hfirst ▸ hselected) hcount

/-! ### The end of a body -/

def insertField (f : IRFunction) (source : Option Nat) (x : (IROperand × IRType) × Nat) :
    Action IRModule (Option Nat) := do
  let target ← newTemporary
  append (.insert target f.results source x.1.2 x.1.1 x.2)
  return some target

theorem insertFields_apply {f : IRFunction} {base : Nat} (pairs : List (IROperand × IRType))
    (start : Nat) (m : IRModule) (hm : m.temporaries = base + start) :
    (pairs.zipIdx start).foldlM (insertField f) (filled base start) m =
      .ok (filled base (start + pairs.length))
        (m.extend ((pairs.zipIdx start).map fun x => insertion base f.results x.2 x.1.1 x.1.2)
          m.strings m.usesIntToString) := by
  induction pairs generalizing start m with
  | nil => exact congrArg _ m.extend_nil.symm
  | cons pair pairs ih =>
    have hfirst : insertField f (filled base start) (pair, start) m = .ok (filled base (start + 1))
        (m.extend [insertion base f.results start pair.1 pair.2] m.strings m.usesIntToString) := by
      rw [extend_assign m rfl, filled_succ, insertion, ← hm]
      rfl
    rw [List.zipIdx_cons, List.foldlM_cons, Action.bind_of_ok hfirst, ih _ _ ?_]
    · rw [List.length_cons, Nat.add_right_comm, Nat.add_assoc]
      exact congrArg (EStateM.Result.ok _) (extend_extend ..)
    · rw [extend_assign m rfl, hm, Nat.add_assoc]

theorem emitAggregate_apply {f : IRFunction} {outputs : List IROperand}
    (hl : outputs.length = f.results.length) (m : IRModule) : emitAggregate f outputs m =
      .ok (filled m.temporaries outputs.length)
        (m.extend (insertions m.temporaries f.results outputs) m.strings m.usesIntToString) := by
  have hfields := insertFields_apply (f := f) (outputs.zip f.results) 0 m rfl
  rw [List.length_zip, ← hl, Nat.min_self, Nat.zero_add] at hfields
  exact hfields

theorem emitReturn_apply {f : IRFunction} {outputs : List IROperand}
    (hl : outputs.length = f.results.length) (m : IRModule) : emitReturn f outputs m =
      .ok (returned m.temporaries f outputs)
        (m.extend (packing m.temporaries f outputs) m.strings m.usesIntToString) := by
  match outputs, hr : f.results with
  | [], results =>
    simp only [emitReturn, returned, packing, extend_nil]
    rfl
  | [operand], type :: rest =>
    simp only [emitReturn, returned, packing, extend_nil, hr]
    rfl
  | [_], [] => simp [hr] at hl
  | first :: second :: rest, results =>
    have hpack := emitAggregate_apply hl m
    rw [hr] at hpack
    simp only [emitReturn, returned, packing, hr]
    exact Action.map_eq_ok.mpr ⟨_, hpack, rfl⟩

def finish (m : IRModule) (f : IRFunction) (b : IRBody) : IRModule :=
  { m with bodies := m.bodies.push b, head := none, code := #[] }.markDefined f.symbol

theorem finishBody_apply {f : IRFunction} {outputs : List IROperand}
    (hl : outputs.length = f.results.length) (m : IRModule) : finishBody f outputs m =
      let m' := m.extend (packing m.temporaries f outputs) m.strings m.usesIntToString
      .ok () (m'.finish f ⟨m'.head, m'.code, returned m.temporaries f outputs⟩) := by
  rw [finishBody, Action.bind_of_ok (emitReturn_apply hl m)]
  rfl

def begun (m : IRModule) (f : IRFunction) : IRModule :=
  { m with head := some f, code := #[], temporaries := 0 }

/-- The module with the whole body of a function, given the code of its nodes. -/
def withBody (m : IRModule) (f : IRFunction) (code : List IRInstruction)
    (outputs : List IROperand) (strings : Array String) (usesIntToString : Bool) : IRModule :=
  { m with
    temporaries := (targets (code ++ packing (targets code).length f outputs)).length
    strings, usesIntToString }.finish f (.ofCode f code outputs)

theorem finish_begun {f : IRFunction} {outputs : List IROperand}
    (hl : outputs.length = f.results.length) (m : IRModule) (code : List IRInstruction)
    (strings : Array String) (uses : Bool) :
    finishBody f outputs ((m.begun f).extend code strings uses) =
      .ok () (m.withBody f code outputs strings uses) := by
  have hfirst : ((m.begun f).extend code strings uses).temporaries = (targets code).length :=
    Nat.zero_add _
  rw [finishBody_apply hl, hfirst]
  simp [extend, begun, finish, withBody, IRBody.ofCode]

section Compile
variable {V : Vocabulary} {functions : FunctionTable IRModule.target} {d : Definition}
  {f : IRFunction}

theorem length_outputs (hf : f.Typed) (hs : d.signature = .ok f.signature) :
    d.outputs.length = f.results.length :=
  (Definition.signature_eq_ok.mp hs).2.length_eq.trans hf.length_results.symm

theorem exists_parameter (hd : d.Sound V) (hf : f.Typed) (hs : d.signature = .ok f.signature)
    {id index : Nat} {declared : ValueType} {inputs : List Output}
    (hn : d.graph.node? id = some ⟨.argument index declared, inputs⟩) :
    ∃ type lowered, d.graph.outputType ⟨id, 0⟩ = .ok type ∧
      IRType.ofValueType type = .ok lowered ∧ f.parameters[index]? = some lowered := by
  obtain ⟨type, hinput, htype⟩ :=
    Pointwise.right_of_left (Definition.signature_eq_ok.mp hs).1 (hd.numbered hn)
  obtain ⟨lowered, hparameter, hlowered⟩ :=
    Pointwise.right_of_left (Except.mapM_eq_ok.mp hf.parameters) hinput
  exact ⟨type, lowered, htype, hlowered, hparameter⟩

/-- The body of a definition holds the code of its nodes. -/
theorem compile_eq_ok {m m' : IRModule} {cache : OperandCache IRModule.target} (hd : d.Sound V)
    (hl : d.outputs.length = f.results.length) (h : d.compile f functions m = .ok cache m') :
    ∃ table code operands strings uses,
      Lowered functions strings d.graph.nodes.toList table code ∧ table.Reads d.outputs operands ∧
      m.strings.toList <+: strings.toList ∧ m' = m.withBody f code operands strings uses := by
  obtain ⟨m₁, m₂, table, operands, hbegin, hgen, hreads, hfinish⟩ :=
    Definition.generated_compile hd.graph.ordered (fun o ho => hd.outputs ho) h
  have hbegun : m.begun f = m₁ := by
    cases hbegin
    rfl
  subst hbegun
  obtain ⟨code, strings, uses, rfl, hprefix, hlowered⟩ := lowered_of_generated rfl hgen
  have hcount : operands.length = f.results.length := hreads.length_eq.symm.trans hl
  cases (finish_begun hcount m code strings uses).symm.trans hfinish
  exact ⟨table, code, operands, strings, uses, hlowered, hreads, hprefix, rfl⟩

/-- There is a body for every definition whose function has its types, if the words that it uses
have functions. -/
theorem exists_compile (hd : d.Sound V) (hf : f.Typed) (hs : d.signature = .ok f.signature)
    (hwords : Covers functions V) (m : IRModule) : ∃ cache m', d.compile f functions m = .ok cache m' := by
  have hemits : Emission.Emits d.graph functions fun _ : IRModule => True :=
    emits hd.graph (fun hn => by
      obtain ⟨type, lowered, htype, hlowered, -⟩ := exists_parameter hd hf hs hn
      exact ⟨type, lowered, htype, hlowered⟩) hwords
  have hbegin : beginBody f m = .ok () (m.begun f) := rfl
  refine Definition.exists_compile hd.graph.ordered (fun o ho => hd.outputs ho) hemits hbegin
    trivial fun operands t hcount _ => ?_
  exact ⟨_, finishBody_apply (hcount.trans (length_outputs hf hs)) t⟩

end Compile
end IRModule
end StackEffect
