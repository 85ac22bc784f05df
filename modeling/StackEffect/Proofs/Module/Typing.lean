import StackEffect.Proofs.Module.Lowering

/-!
Types in the code of a body. Code runs in a scope if it assigns its temporaries in their order and
finds its operands among parameters, strings and earlier temporaries, with the types that it states
(`IRScope.Runs`); the code of the nodes of a sound graph does (`Lowered.runs`). The types are those
of the graph: an argument has the type of its parameter, and an open type has no counterpart, so that
what a node asks for is what it finds (`Typed.reads`).
-/
namespace StackEffect

/-! ### Types of operands -/

/-- What code can name. The value of a temporary has a list of types: a structure has the types of
its places there, any other value has its own type alone. -/
structure IRScope where
  parameters : List IRType
  strings : Array String
  assigned : List (Nat × List IRType) := []

inductive IROperand.HasType (scope : IRScope) : IROperand → List IRType → Prop
  | temporary {n : Nat} {types : List IRType} : (n, types) ∈ scope.assigned →
      HasType scope (.temporary n) types
  | parameter {n : Nat} {type : IRType} : scope.parameters[n]? = some type →
      HasType scope (.parameter n) [type]
  | int (n : Int32) : HasType scope (.int n) [.i32]
  | float (x : Float32) : HasType scope (.float x) [.float]
  | string {n : Nat} : n < scope.strings.size → HasType scope (.string n) [.ptr]

def Cast.operandType : Cast → IRType
  | .intToString | .intToFloat => .i32
  | .floatToInt => .float

def Cast.resultType : Cast → IRType
  | .intToString => .ptr
  | .intToFloat => .float
  | .floatToInt => .i32

theorem Cast.ofValueType_source (c : Cast) : IRType.ofValueType c.source = .ok c.operandType := by
  cases c <;> rfl

theorem Cast.ofValueType_target (c : Cast) : IRType.ofValueType c.target = .ok c.resultType := by
  cases c <;> rfl

namespace IRInstruction

/-- The operands of an instruction, with the types that it states for them. -/
def uses : IRInstruction → List (List IRType × IROperand)
  | integerOp _ _ left right => [([.i32], left), ([.i32], right)]
  | floatOp _ _ left right => [([.float], left), ([.float], right)]
  | cast _ c operand => [([c.operandType], operand)]
  | call _ _ _ arguments => arguments.map fun (type, operand) => ([type], operand)
  | extract _ results source _ => [(results, .temporary source)]
  | insert _ results source type operand _ =>
    (source.map fun n => (results, IROperand.temporary n)).toList ++ [([type], operand)]

/-- The temporary that an instruction assigns, with the type of its value. -/
def assigns? : IRInstruction → Option (Nat × List IRType)
  | integerOp n .. => some (n, [.i32])
  | floatOp n .. => some (n, [.float])
  | cast n c _ => some (n, [c.resultType])
  | call n results .. => n.map fun n => (n, results)
  | extract n results _ index => some (n, (results[index]?).toList)
  | insert n results .. => some (n, results)

/-- A call has the types of a function that is known and assigns what the function returns. A
structure has several places; the one that is read is there, and the one that is filled is filled with
a value of its type. -/
def Fits (known : IRFunction → Prop) : IRInstruction → Prop
  | call n results symbol arguments => ∃ g, known g ∧ g.symbol = symbol ∧ g.results = results ∧
      g.parameters = arguments.map Prod.fst ∧ (n = none ↔ results = [])
  | extract _ results _ index => 1 < results.length ∧ index < results.length
  | insert _ results _ type _ index => 1 < results.length ∧ results[index]? = some type
  | integerOp .. | floatOp .. | cast .. => True

theorem Fits.mono {known known' : IRFunction → Prop} (h : ∀ f, known f → known' f)
    {i : IRInstruction} (hi : i.Fits known) : i.Fits known' := by
  cases i with
  | call n results symbol arguments =>
    obtain ⟨g, hg, hrest⟩ := hi
    exact ⟨g, h g hg, hrest⟩
  | integerOp => trivial
  | floatOp => trivial
  | cast => trivial
  | extract => exact hi
  | insert => exact hi

end IRInstruction

namespace IRReturn

def uses : IRReturn → List (List IRType × IROperand)
  | nothing => []
  | value type operand => [([type], operand)]
  | aggregate results source => (source.map fun n => (results, IROperand.temporary n)).toList

def results : IRReturn → List IRType
  | nothing => []
  | value type _ => [type]
  | aggregate results _ => results

end IRReturn

namespace IRScope
variable {scope : IRScope} {code more : List IRInstruction}

/-- What code can be named behind other code. -/
def after (scope : IRScope) (code : List IRInstruction) : IRScope :=
  { scope with assigned := scope.assigned ++ code.filterMap IRInstruction.assigns? }

@[simp] theorem after_nil (scope : IRScope) : scope.after [] = scope := by
  simp [after]

theorem after_after (scope : IRScope) (code more : List IRInstruction) :
    (scope.after code).after more = scope.after (code ++ more) := by
  simp [after]

/-- Every instruction finds its operands among what has been assigned before it. -/
def Accepts : IRScope → List IRInstruction → Prop
  | _, [] => True
  | scope, i :: code => (∀ u ∈ i.uses, u.2.HasType scope u.1) ∧ (scope.after [i]).Accepts code

theorem accepts_append : scope.Accepts (code ++ more) ↔
    scope.Accepts code ∧ (scope.after code).Accepts more := by
  induction code generalizing scope with
  | nil => simp [Accepts]
  | cons i code ih =>
    rw [List.cons_append, Accepts, Accepts, ih, after_after, and_assoc]
    rfl

end IRScope

theorem IROperand.HasType.mono {scope scope' : IRScope} {operand : IROperand}
    {types : List IRType} (h : operand.HasType scope types)
    (hparameters : scope'.parameters = scope.parameters)
    (hstrings : scope.strings.size ≤ scope'.strings.size)
    (hassigned : scope.assigned ⊆ scope'.assigned) : operand.HasType scope' types := by
  cases h with
  | temporary hn => exact .temporary (hassigned hn)
  | parameter hn => exact .parameter (hparameters ▸ hn)
  | int n => exact .int n
  | float x => exact .float x
  | string hn => exact .string (Nat.lt_of_lt_of_le hn hstrings)

theorem IROperand.HasType.after {scope : IRScope} {operand : IROperand} {types : List IRType}
    (h : operand.HasType scope types) (code : List IRInstruction) :
    operand.HasType (scope.after code) types :=
  h.mono rfl (Nat.le_refl _) (List.subset_append_left ..)

namespace IRScope
variable {scope : IRScope} {code more : List IRInstruction}

theorem accepts_of_forall (h : ∀ i ∈ code, ∀ u ∈ i.uses, u.2.HasType scope u.1) :
    scope.Accepts code := by
  induction code generalizing scope with
  | nil => trivial
  | cons i code ih =>
    refine ⟨h i List.mem_cons_self, ih fun j hj u hu => ?_⟩
    exact (h j (List.mem_cons_of_mem i hj) u hu).after [i]

theorem Accepts.mono {scope' : IRScope} (h : scope.Accepts code)
    (hparameters : scope'.parameters = scope.parameters)
    (hstrings : scope.strings.size ≤ scope'.strings.size)
    (hassigned : scope.assigned ⊆ scope'.assigned) : scope'.Accepts code := by
  induction code generalizing scope scope' with
  | nil => trivial
  | cons i code ih =>
    refine ⟨fun u hu => (h.1 u hu).mono hparameters hstrings hassigned, ih h.2 hparameters hstrings ?_⟩
    exact List.append_subset.mpr ⟨List.Subset.trans hassigned (List.subset_append_left ..),
      List.subset_append_right ..⟩

end IRScope

/-- Code that assigns the next temporaries in their order, from `first` on, uses what it can name
with the types that it states, and calls functions that are known. -/
structure IRScope.Runs (known : IRFunction → Prop) (scope : IRScope) (first : Nat)
    (code : List IRInstruction) : Prop where
  numbered : targets code = List.range' first (targets code).length
  accepted : scope.Accepts code
  fits : ∀ i ∈ code, i.Fits known

namespace IRScope.Runs
variable {known known' : IRFunction → Prop} {scope scope' : IRScope} {first : Nat}
  {code more : List IRInstruction}

theorem nil (known : IRFunction → Prop) (scope : IRScope) (first : Nat) :
    scope.Runs known first [] where
  numbered := rfl
  accepted := trivial
  fits := List.forall_mem_nil _

theorem append (h : scope.Runs known first code)
    (hm : (scope.after code).Runs known (first + (targets code).length) more) :
    scope.Runs known first (code ++ more) where
  numbered := by
    rw [targets_append, List.length_append, ← List.range'_append_1, ← h.numbered, ← hm.numbered]
  accepted := accepts_append.mpr ⟨h.accepted, hm.accepted⟩
  fits := List.forall_mem_append.mpr ⟨h.fits, hm.fits⟩

theorem single {i : IRInstruction} (htarget : i.target? = some first)
    (huses : ∀ u ∈ i.uses, u.2.HasType scope u.1) (hfits : i.Fits known) :
    scope.Runs known first [i] where
  numbered := by simp [targets, htarget]
  accepted := ⟨huses, trivial⟩
  fits := List.forall_mem_singleton.mpr hfits

theorem mono (h : scope.Runs known first code) (hknown : ∀ f, known f → known' f)
    (hparameters : scope'.parameters = scope.parameters)
    (hstrings : scope.strings.size ≤ scope'.strings.size)
    (hassigned : scope.assigned ⊆ scope'.assigned) : scope'.Runs known' first code where
  numbered := h.numbered
  accepted := h.accepted.mono hparameters hstrings hassigned
  fits i hi := (h.fits i hi).mono hknown

end IRScope.Runs

namespace IRModule

/-! ### Types of operands of a graph -/

/-- The operand has the counterpart of the type, if there is one. -/
def Answers? (scope : IRScope) (type : ValueType) (operand : IROperand) : Prop :=
  ∀ lowered, IRType.ofValueType type = .ok lowered → operand.HasType scope [lowered]

theorem Answers?.after {scope : IRScope} {type : ValueType} {operand : IROperand}
    (h : Answers? scope type operand) (code : List IRInstruction) :
    Answers? (scope.after code) type operand := fun lowered hl => (h lowered hl).after code

def Typed (g : Graph) (scope : IRScope) (table : Table IROperand) : Prop :=
  ∀ {o x type}, table.value? o = some x → g.outputType o = .ok type → Answers? scope type x

/-- What a node finds has the types that it asks for, since an open type has no counterpart. -/
theorem Typed.reads {g : Graph} {scope : IRScope} {table : Table IROperand}
    (ht : Typed g scope table) {types : List ValueType} {os : List Output}
    {operands : List IROperand} (ha : List.Forall₂ g.Accepts types os)
    (hr : table.Reads os operands) : List.Forall₂ (Answers? scope) types operands := by
  refine Pointwise.comp ha hr fun required o x ⟨actual, hactual, hc⟩ hx lowered hl => ?_
  rcases ValueType.compatible_iff.mp hc with rfl | rfl
  · exact ht hx hactual lowered hl
  · cases hl

theorem Typed.add {g : Graph} {scope : IRScope} {table : Table IROperand} {code : List IRInstruction}
    {results : List IROperand} (ht : Typed g scope table)
    (hresults : ∀ {index : Nat} {x type}, results[index]? = some x →
      g.outputType ⟨table.size, index⟩ = .ok type → Answers? (scope.after code) type x) :
    Typed g (scope.after code) (table.add results) := by
  intro o x type hx htype
  rcases Table.value?_add_eq_some.mp hx with hx | ⟨index, rfl, hi⟩
  · exact (ht hx htype).after code
  · exact hresults hi htype

def Parametrized (g : Graph) (scope : IRScope) : Prop :=
  ∀ {id index declared inputs}, g.node? id = some ⟨.argument index declared, inputs⟩ →
    ∃ type lowered, g.outputType ⟨id, 0⟩ = .ok type ∧ IRType.ofValueType type = .ok lowered ∧
      scope.parameters[index]? = some lowered

def Knows (known : IRFunction → Prop) (functions : FunctionTable IRModule.target)
    (V : Vocabulary) : Prop :=
  ∀ {c f}, V c → (functions[c.word]?).join = some f →
    known f ∧ IRFunction.Typed f ∧ IRFunction.signature f = c.signature

/-! ### Types of the code of a node -/

section Code
variable {scope : IRScope} {known : IRFunction → Prop} {first : Nat} {f : IRFunction}
  {operands results : List IROperand}

theorem hasType_after {code : List IRInstruction} {i : IRInstruction} {n : Nat}
    {types : List IRType} (hi : i ∈ code) (hn : i.assigns? = some (n, types)) :
    (IROperand.temporary n).HasType (scope.after code) types :=
  .temporary (List.mem_append_right _ (List.mem_filterMap.mpr ⟨i, hi, hn⟩))

theorem index_eq_zero {α : Type} {x y : α} {index : Nat} (h : [x][index]? = some y) : index = 0 :=
  Nat.lt_one_iff.mp (List.getElem?_eq_some_iff.mp h).1

theorem answers_assigned {i : IRInstruction} {n index : Nat} {type : ValueType} {lowered : IRType}
    {x : IROperand} (hi : i.assigns? = some (n, [lowered]))
    (ht : IRType.ofValueType type = .ok lowered) (hx : [IROperand.temporary n][index]? = some x) :
    Answers? (scope.after [i]) type x := by
  intro lowered' hl
  cases ht.symm.trans hl
  rw [List.mem_singleton.mp (List.mem_of_getElem? hx)]
  exact hasType_after (List.mem_singleton_self i) hi

theorem runs_extractions (hsource : (IROperand.temporary first).HasType scope f.results) :
    scope.Runs known (first + 1) (extractions first f) := by
  unfold extractions
  split
  · exact .nil ..
  · rename_i hmany
    constructor
    · simp [targets, List.filterMap_map, IRInstruction.target?, List.range'_eq_map_range,
        Function.comp_def, List.filterMap_eq_map']
    · refine IRScope.accepts_of_forall fun i hi u hu => ?_
      obtain ⟨index, -, rfl⟩ := List.mem_map.mp hi
      cases List.mem_singleton.mp hu
      exact hsource
    · intro i hi
      obtain ⟨index, hindex, rfl⟩ := List.mem_map.mp hi
      exact ⟨Nat.lt_of_not_le hmany, List.mem_range.mp hindex⟩

theorem extractions_of_results_eq_nil (h : f.results = []) : extractions first f = [] := by
  simp [extractions, h]

theorem runs_callCode (hknown : known f)
    (hoperands : List.Forall₂ (fun type (x : IROperand) => x.HasType scope [type]) f.parameters
      operands) : scope.Runs known first (callCode first f operands) := by
  have huses : ∀ n, ∀ u ∈ (IRInstruction.call n f.results f.symbol
      (f.parameters.zip operands)).uses, u.2.HasType scope u.1 := by
    intro n u hu
    obtain ⟨⟨type, operand⟩, hmem, rfl⟩ := List.mem_map.mp hu
    exact List.forall₂_zip hoperands hmem
  have hfits : ∀ n, (n = none ↔ f.results = []) → (IRInstruction.call n f.results f.symbol
      (f.parameters.zip operands)).Fits known := fun n hn =>
    ⟨f, hknown, rfl, rfl, (List.map_fst_zip (Nat.le_of_eq hoperands.length_eq)).symm, hn⟩
  unfold callCode
  by_cases hempty : f.results = []
  · rw [if_pos hempty, extractions_of_results_eq_nil hempty]
    exact ⟨rfl, ⟨huses none, trivial⟩, List.forall_mem_singleton.mpr (hfits none (by simp [hempty]))⟩
  · rw [if_neg hempty]
    have hcall : scope.Runs known first [.call (some first) f.results f.symbol
        (f.parameters.zip operands)] := .single rfl (huses _) (hfits _ (by simp [hempty]))
    exact hcall.append (runs_extractions (hasType_after List.mem_cons_self rfl))

theorem hasType_callResults {index : Nat} {x : IROperand} {type : IRType}
    (hx : (callResults first f)[index]? = some x) (htype : f.results[index]? = some type) :
    x.HasType (scope.after (callCode first f operands)) [type] := by
  have hlt := (List.getElem?_eq_some_iff.mp htype).1
  unfold callResults at hx
  split at hx
  · -- A single result is the temporary that the call assigns.
    rename_i hone
    obtain ⟨type', hr⟩ := List.length_eq_one_iff.mp (Nat.le_antisymm hone (Nat.zero_lt_of_lt hlt))
    rw [hr] at htype hx
    cases List.mem_singleton.mp (List.mem_of_getElem? hx)
    cases List.mem_singleton.mp (List.mem_of_getElem? htype)
    refine hasType_after List.mem_cons_self ?_
    simp [IRInstruction.assigns?, hr]
  · rename_i hmany
    rw [List.getElem?_map, List.getElem?_range hlt] at hx
    cases hx
    have hmem : .extract (first + 1 + index) f.results first index ∈ extractions first f := by
      rw [extractions, if_neg hmany]
      exact List.mem_map.mpr ⟨index, List.mem_range.mpr hlt, rfl⟩
    refine hasType_after (List.mem_cons_of_mem _ hmem) ?_
    simp [IRInstruction.assigns?, htype]

end Code

section Step
variable {V : Vocabulary} {g : Graph} {functions : FunctionTable IRModule.target}
  {strings : Array String} {known : IRFunction → Prop} {scope : IRScope} {first : Nat}
  {kind : NodeKind} {operands results : List IROperand} {more : List IRInstruction}

/-- What a node asks for is what its code states. -/
theorem Selected.runs (hs : Selected functions strings first kind operands more results)
    (hword : V.Has kind) (hknows : Knows known functions V)
    (ho : List.Forall₂ (Answers? scope) kind.demands operands) :
    scope.Runs known first more := by
  cases hs with
  | literal operands hr => exact .nil ..
  | argument index type operands => exact .nil ..
  | shuffle s operands => exact .nil ..
  | integer op left right rest =>
    obtain ⟨hl, hrest⟩ := List.forall₂_cons.mp ho
    obtain ⟨hr, -⟩ := List.forall₂_cons.mp hrest
    refine .single rfl ?_ trivial
    simpa [IRInstruction.uses] using ⟨hl .i32 rfl, hr .i32 rfl⟩
  | float op left right rest =>
    obtain ⟨hl, hrest⟩ := List.forall₂_cons.mp ho
    obtain ⟨hr, -⟩ := List.forall₂_cons.mp hrest
    refine .single rfl ?_ trivial
    simpa [IRInstruction.uses] using ⟨hl .float rfl, hr .float rfl⟩
  | cast c operand rest =>
    obtain ⟨ha, -⟩ := List.forall₂_cons.mp ho
    refine .single rfl ?_ trivial
    simpa [IRInstruction.uses] using ha _ c.ofValueType_source
  | @call callee f operands hf =>
    obtain ⟨hknown, htyped, hsignature⟩ := hknows hword hf
    have hinputs := Except.mapM_eq_ok.mp htyped.parameters
    rw [hsignature] at hinputs
    refine runs_callCode hknown ?_
    exact Pointwise.comp (Pointwise.symm hinputs) ho fun lowered type x hl hx => hx lowered hl

theorem answers_represented {value : Value} {x : IROperand}
    (hx : Represents scope.strings value x) : Answers? scope value.type x := by
  intro lowered hlowered
  cases hx with
  | int n =>
    cases hlowered
    exact .int n
  | float y =>
    cases hlowered
    exact .float y
  | string hs =>
    cases hlowered
    exact .string (Array.getElem?_eq_some_iff.mp hs).1

theorem Typed.shuffle {n : Node} {table : Table IROperand} (ht : Typed g scope table)
    (hreads : table.Reads n.inputs operands) (hg : g.Ordered) {id : NodeId}
    (hn : g.node? id = some n) {s : Shuffle} (hk : n.kind = .primitive (.shuffle s)) {index : Nat}
    {x : IROperand} {type : ValueType} (hx : (s.sources.filterMap (operands[·]?))[index]? = some x)
    (htype : g.outputType ⟨id, index⟩ = .ok type) : Answers? scope type x := by
  obtain ⟨kind, inputs⟩ := n
  obtain rfl : kind = .primitive (.shuffle s) := hk
  have hoperands : operands.length = s.arity := hreads.length_eq.symm.trans (hg.length hn)
  have hpick : List.Forall₂ (fun i x => operands[i]? = some x) s.sources
      (s.sources.filterMap (operands[·]?)) := Pointwise.filterMap fun i hi =>
    ⟨_, List.getElem?_eq_getElem (hoperands ▸ Shuffle.lt_arity_of_mem_sources hi)⟩
  obtain ⟨place, hplace, hoperand⟩ := Pointwise.left_of_right hpick hx
  obtain ⟨o, ho, hvalue⟩ := Pointwise.left_of_right hreads hoperand
  have hr : g.repeated? ⟨id, index⟩ = some o := by
    rw [Graph.repeated?_of_node? hn, Graph.repeated?_eq_bind]
    exact (congrArg (Option.bind · _) hplace).trans ho
  rw [hg.outputType_of_repeated (Graph.produces_of_outputType htype) hr] at htype
  exact ht hvalue htype

theorem Selected.answers {n : Node} {table : Table IROperand}
    (hs : Selected functions strings first n.kind operands more results) (ht : Typed g scope table)
    (hreads : table.Reads n.inputs operands) (hg : g.Ordered) (hn : g.node? table.size = some n)
    (hword : V.Has n.kind) (hknows : Knows known functions V)
    (harguments : Parametrized g scope)
    (hstrings : scope.strings = strings) {index : Nat} {x : IROperand} {type : ValueType}
    (hx : results[index]? = some x) (htype : g.outputType ⟨table.size, index⟩ = .ok type) :
    Answers? (scope.after more) type x := by
  have hproduced := Graph.produces_of_outputType htype
  have hrepeated : g.repeated? ⟨table.size, index⟩ = _ := Graph.repeated?_of_node? hn
  have hsource : g.repeated? ⟨table.size, index⟩ = none → _ := fun hr =>
    (Graph.producedType?_of_node? hn).symm.trans ((Graph.outputType_of_source hproduced hr).mp htype)
  obtain ⟨kind, inputs⟩ := n
  cases hs with
  | literal operands hr =>
    cases hsource hrepeated
    cases List.mem_singleton.mp (List.mem_of_getElem? hx)
    exact (answers_represented (hstrings ▸ hr)).after _
  | argument number declared operands =>
    obtain rfl := index_eq_zero hx
    cases hx
    obtain ⟨type', lowered', htype', hlowered', hparameter⟩ := harguments hn
    cases htype'.symm.trans htype
    intro lowered hlowered
    cases hlowered'.symm.trans hlowered
    exact .parameter hparameter
  | shuffle s operands => exact (ht.shuffle hreads hg hn rfl hx htype).after _
  | integer op left right rest =>
    obtain rfl := index_eq_zero hx
    cases hsource hrepeated
    exact answers_assigned rfl rfl hx
  | float op left right rest =>
    obtain rfl := index_eq_zero hx
    cases hsource hrepeated
    exact answers_assigned rfl rfl hx
  | cast c operand rest =>
    obtain rfl := index_eq_zero hx
    cases hsource hrepeated
    exact answers_assigned rfl c.ofValueType_target hx
  | @call callee f operands hf =>
    obtain ⟨-, htyped, hsignature⟩ := hknows hword hf
    have houtputs := Except.mapM_eq_ok.mp htyped.results
    rw [hsignature] at houtputs
    obtain ⟨lowered', hlowered', hof⟩ := Pointwise.right_of_left houtputs (hsource hrepeated)
    intro lowered hlowered
    cases hof.symm.trans hlowered
    exact hasType_callResults hx hlowered'

/-- The code of the first nodes of a sound graph, in a scope in which nothing has been assigned. -/
theorem Lowered.runs {nodes after : List Node} {table : Table IROperand} {code : List IRInstruction}
    (h : Lowered functions strings nodes table code) (hg : g.Sound V)
    (hnodes : g.nodes.toList = nodes ++ after) (hknows : Knows known functions V)
    (harguments : Parametrized g scope) (hstrings : scope.strings = strings) :
    table.size = nodes.length ∧ scope.Runs known 0 code ∧ Typed g (scope.after code) table := by
  induction h generalizing after with
  | none => exact ⟨rfl, .nil .., fun hx => absurd (Table.lt_size_of_value? hx) (Nat.not_lt_zero _)⟩
  | @node nodes table code n operands results more _ hreads hs _ ih =>
    obtain ⟨hsize, hruns, htyped⟩ := ih ((List.append_assoc ..).symm ▸ hnodes)
    have hn : g.node? table.size = some n :=
      hsize ▸ Graph.node?_of_toList ((List.append_assoc ..).symm ▸ hnodes)
    have hmore := hs.runs (hg.words hn) hknows (htyped.reads (hg.typed hn) hreads)
    have hresults : ∀ {index : Nat} {x type}, results[index]? = some x →
        g.outputType ⟨table.size, index⟩ = .ok type →
        Answers? ((scope.after code).after more) type x := fun hx htype =>
      hs.answers htyped hreads hg.ordered hn (hg.words hn) hknows harguments hstrings hx htype
    refine ⟨by simp [hsize], hruns.append (Nat.zero_add _ ▸ hmore), ?_⟩
    rw [← IRScope.after_after]
    exact htyped.add hresults

end Step
end IRModule
end StackEffect
