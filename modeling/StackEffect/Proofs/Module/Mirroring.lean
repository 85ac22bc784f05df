import StackEffect.Proofs.Machine.Layering
import StackEffect.Proofs.Module.WellFormed
import StackEffect.Proofs.Session.Valued

/-!
One definition on two targets. Where registers are turned into operands, the body on the register
machine is the one in the text of the module, instruction by instruction (`Definition.Mirrored`): a
constant and an argument are operands that are there already, an operation becomes the one of the type
of its node, and the results of a call are taken apart at once. Both targets accept each definition
with a closed signature (`generate_mirrored`).
-/
namespace StackEffect

/-! ### Instructions that correspond -/

/-- The operands that registers are turned into. -/
def Imaged (images : List IROperand) (rs : List Register) (operands : List IROperand) : Prop :=
  List.Forall₂ (fun (r : Register) x => images[r]? = some x) rs operands

theorem Imaged.append {images operands : List IROperand} {rs : List Register}
    (h : Imaged images rs operands) (more : List IROperand) :
    Imaged (images ++ more) rs operands :=
  h.imp fun r _ hr => by
    rw [List.getElem?_append_left (List.getElem?_eq_some_iff.mp hr).1, hr]

theorem imaged_append (images more : List IROperand) :
    Imaged (images ++ more) (List.range' images.length more.length) more := by
  refine List.forall₂_iff_get.mpr ⟨List.length_range', fun i hi hi' => ?_⟩
  simp [hi']

/-- An instruction of the machine and its counterpart in a module, both for a node of this kind. A
call names the function of the same word. -/
inductive Translated (routines : FunctionTable Machine.target)
    (functions : FunctionTable IRModule.target) (strings : Array String)
    (images : List IROperand) : NodeKind → Instruction → List IRInstruction → Prop
  | constant {value : Value} {r : Register} {x : IROperand} : images[r]? = some x →
      IRModule.Represents strings value x →
      Translated routines functions strings images (.literal value) (.constant r value) []
  | argument {index : Nat} {type : ValueType} {r : Register} :
      images[r]? = some (.parameter index) →
      Translated routines functions strings images (.argument index type) (.argument r index) []
  | integer {op : BinaryOp} {r left right : Register} {n : Nat} {x y : IROperand} :
      images[r]? = some (.temporary n) → Imaged images [left, right] [x, y] →
      Translated routines functions strings images (.primitive (.binary op .int32))
        (.binary r op left right) [.integerOp n op x y]
  | float {op : BinaryOp} {r left right : Register} {n : Nat} {x y : IROperand} :
      images[r]? = some (.temporary n) → Imaged images [left, right] [x, y] →
      Translated routines functions strings images (.primitive (.binary op .float))
        (.binary r op left right) [.floatOp n op x y]
  | cast {c : Cast} {r source : Register} {n : Nat} {x : IROperand} :
      images[r]? = some (.temporary n) → Imaged images [source] [x] →
      Translated routines functions strings images (.primitive (.cast c)) (.cast r c source)
        [.cast n c x]
  | call {callee : Callee} {id : RoutineId} {f : IRFunction} {rs arguments : List Register}
      {operands : List IROperand} {n : Nat} : (routines[callee.word]?).join = some id →
      (functions[callee.word]?).join = some f → operands.length = f.parameters.length →
      Imaged images arguments operands → Imaged images rs (callResults n f) →
      Translated routines functions strings images (.call callee) (.call rs id arguments)
        (callCode n f operands)

section Translated
variable {routines : FunctionTable Machine.target} {functions : FunctionTable IRModule.target}
  {strings : Array String} {images : List IROperand} {kind : NodeKind} {i : Instruction}
  {code : List IRInstruction}

theorem Translated.append (h : Translated routines functions strings images kind i code)
    (more : List IROperand) : Translated routines functions strings (images ++ more) kind i code := by
  have hold : ∀ {r : Register} {x : IROperand}, images[r]? = some x →
      (images ++ more)[r]? = some x := fun hr => by
    rw [List.getElem?_append_left (List.getElem?_eq_some_iff.mp hr).1, hr]
  cases h with
  | constant hr hx => exact .constant (hold hr) hx
  | argument hr => exact .argument (hold hr)
  | integer hr ho => exact .integer (hold hr) (ho.append more)
  | float hr ho => exact .float (hold hr) (ho.append more)
  | cast hr ho => exact .cast (hold hr) (ho.append more)
  | call hid hf hcount ho hrs => exact .call hid hf hcount (ho.append more) (hrs.append more)

/-- What the targets select for a node corresponds, if their operands do. -/
theorem translated_of_selected {rs : List Register} {operands results : List IROperand}
    {count first : Nat} (hv : Machine.Selected routines images.length kind rs count i)
    (hl : IRModule.Selected functions strings first kind operands code results)
    (hcount : results.length = count) (ho : Imaged images rs operands)
    (hparameters : ∀ {callee f}, kind = .call callee → (functions[callee.word]?).join = some f →
      operands.length = f.parameters.length) :
    Translated routines functions strings (images ++ results) kind i code := by
  have hnew : ∀ x, (images ++ [x])[images.length]? = some x := fun x => List.getElem?_concat_length
  cases hv with
  | literal value rs =>
    cases hl with
    | literal operands hx => exact .constant (hnew _) hx
  | argument index type rs =>
    cases hl with
    | argument => exact .argument (hnew _)
  | binary op type left right =>
    cases hl with
    | integer op x y rest =>
      cases (List.forall₂_cons.mp (List.forall₂_cons.mp ho).2).2
      exact .integer (hnew _) (ho.append _)
    | float op x y rest =>
      cases (List.forall₂_cons.mp (List.forall₂_cons.mp ho).2).2
      exact .float (hnew _) (ho.append _)
  | cast c source =>
    cases hl with
    | cast c x rest =>
      cases (List.forall₂_cons.mp ho).2
      exact .cast (hnew _) (ho.append _)
  | call rs count hid =>
    cases hl with
    | call operands hf =>
      subst hcount
      exact .call hid hf (hparameters rfl hf) (ho.append _) (imaged_append images _)

end Translated

/-! ### Whole bodies -/

def codedKinds (nodes : List Node) : List NodeKind := (nodes.map Node.kind).filter NodeKind.isCoded

theorem Machine.Selected.isCoded {routines : FunctionTable Machine.target} {first : Register}
    {kind : NodeKind} {rs : List Register} {count : Nat} {i : Instruction}
    (h : Selected routines first kind rs count i) : kind.isCoded = true := by
  cases h <;> rfl

/-- The code of the machine and that of the module, for the same nodes. -/
structure MirroredCode (routines : FunctionTable Machine.target)
    (functions : FunctionTable IRModule.target) (strings : Array String) (nodes : List Node)
    (b : Body) (images : List IROperand) (groups : List (List IRInstruction)) : Prop where
  registers : images.length = b.registers
  count : (codedKinds nodes).length = b.code.toList.length
  steps : List.Forall₂ (fun step group =>
      Translated routines functions strings images step.1 step.2 group)
    ((codedKinds nodes).zip b.code.toList) groups

section Mirrored
variable {routines : FunctionTable Machine.target} {functions : FunctionTable IRModule.target}
  {strings : Array String} {nodes : List Node} {b : Body} {images : List IROperand}
  {groups : List (List IRInstruction)}

theorem MirroredCode.shuffle (h : MirroredCode routines functions strings nodes b images groups)
    {n : Node} {s : Shuffle} (hn : n.kind = .primitive (.shuffle s)) :
    MirroredCode routines functions strings (nodes ++ [n]) b images groups := by
  have hkinds : codedKinds (nodes ++ [n]) = codedKinds nodes := by
    simp [codedKinds, hn, NodeKind.isCoded]
  exact ⟨h.registers, hkinds ▸ h.count, hkinds ▸ h.steps⟩

theorem MirroredCode.grow (h : MirroredCode routines functions strings nodes b images groups)
    {n : Node} (hn : n.kind.isCoded = true) {i : Instruction} {more : List IRInstruction}
    {results : List IROperand}
    (hi : Translated routines functions strings (images ++ results) n.kind i more) :
    MirroredCode routines functions strings (nodes ++ [n]) (b.grow results.length i)
      (images ++ results) (groups ++ [more]) := by
  have hkinds : codedKinds (nodes ++ [n]) = codedKinds nodes ++ [n.kind] := by
    simp [codedKinds, hn]
  have hcode : (b.grow results.length i).code.toList = b.code.toList ++ [i] := Array.toList_push
  constructor
  · rw [List.length_append, h.registers]
    rfl
  · rw [hkinds, hcode, List.length_append, List.length_append, h.count]
    rfl
  · rw [hkinds, hcode, List.zip_append h.count]
    exact List.rel_append (h.steps.imp fun _ _ ht => ht.append results) (.cons hi .nil)

/-- What the one table holds is turned into what the other holds. -/
def TablesAgree (images : List IROperand) (table : Table Register) (table' : Table IROperand) : Prop :=
  ∀ o r x, table.value? o = some r → table'.value? o = some x → images[r]? = some x

theorem TablesAgree.reads {table : Table Register} {table' : Table IROperand} {os : List Output}
    {rs : List Register} {operands : List IROperand} (h : TablesAgree images table table')
    (hrs : table.Reads os rs) (ho : table'.Reads os operands) : Imaged images rs operands :=
  Pointwise.comp (Pointwise.symm hrs) ho fun _ _ _ hr hx => h _ _ _ hr hx

theorem TablesAgree.add {table : Table Register} {table' : Table IROperand} {rs : List Register}
    {results more : List IROperand} (h : TablesAgree images table table')
    (hsize : table.size = table'.size) (hnew : Imaged (images ++ more) rs results) :
    TablesAgree (images ++ more) (table.add rs) (table'.add results) := by
  intro o r x hr hx
  rcases Table.value?_add_eq_some.mp hr with hr | ⟨index, rfl, hi⟩
  · rw [Table.value?_add_of_lt _ (hsize ▸ Table.lt_size_of_value? hr)] at hx
    have himage := h _ _ _ hr hx
    rw [List.getElem?_append_left (List.getElem?_eq_some_iff.mp himage).1, himage]
  · rw [hsize, Table.value?_add_size] at hx
    obtain ⟨x', hx', himage⟩ := Pointwise.right_of_left hnew hi
    cases hx.symm.trans hx'
    exact himage

theorem IRModule.Lowered.nil {table : Table IROperand} {code : List IRInstruction}
    (h : Lowered functions strings [] table code) : table = #[] ∧ code = [] := by
  generalize hnodes : [] = all at h
  cases h with
  | none => exact ⟨rfl, rfl⟩
  | node => simp at hnodes

theorem IRModule.Lowered.concat {n : Node} {table : Table IROperand} {code : List IRInstruction}
    (h : Lowered functions strings (nodes ++ [n]) table code) :
    ∃ table₀ code₀ operands results more, table = Table.add table₀ results ∧ code = code₀ ++ more ∧
      Lowered functions strings nodes table₀ code₀ ∧ table₀.Reads n.inputs operands ∧
      Selected functions strings (targets code₀).length n.kind operands more results ∧
      results.length = n.outputArity := by
  generalize hnodes : nodes ++ [n] = all at h
  cases h with
  | none => simp at hnodes
  | node h hreads hs hcount =>
    obtain ⟨rfl, hn⟩ := List.append_inj' hnodes rfl
    cases hn
    exact ⟨_, _, _, _, _, rfl, rfl, h, hreads, hs, hcount⟩

/-- Two targets that go through the same nodes generate code that corresponds. -/
theorem mirrored_of_generated {g : Graph} {m m' : Machine.target.State}
    {table : Table Machine.target.Operand} (hm : Machine.building m = some {})
    (h : Generated g routines m nodes table m') {table' : Table IROperand}
    {code : List IRInstruction} (hl : IRModule.Lowered functions strings nodes table' code)
    (hparameters : ∀ n ∈ nodes, ∀ {callee f}, n.kind = .call callee →
      (functions[callee.word]?).join = some f → n.inputs.length = f.parameters.length) :
    ∃ b images groups, m' = ({ m with building := some b } : Machine) ∧
      MirroredCode routines functions strings nodes b images groups ∧ code = groups.flatten ∧
      table.size = table'.size ∧ TablesAgree images table table' := by
  induction h generalizing table' code with
  | none =>
    obtain ⟨rfl, rfl⟩ := hl.nil
    refine ⟨{}, [], [], by rw [← hm], ⟨rfl, rfl, .nil⟩, rfl, rfl, fun _ _ _ hr => ?_⟩
    exact absurd (Table.lt_size_of_value? hr) (Nat.not_lt_zero _)
  | @node nodes table t n rs results t' _ hreads hemit hcount ih =>
    obtain ⟨table₀, code₀, operands, results', more, rfl, rfl, hl₀, hreads', hs, hcount'⟩ := hl.concat
    obtain ⟨b, images, groups, rfl, hmirrored, rfl, hsize, hagree⟩ :=
      ih hl₀ fun n' hn' => hparameters n' (List.mem_append_left _ hn')
    have ho : Imaged images rs operands := hagree.reads hreads hreads'
    rcases Machine.emit_eq_ok rfl hemit with ⟨s, hk, rfl, rfl⟩ | ⟨count, i, hsel, rfl, rfl⟩
    · rw [hk] at hs
      cases hs
      have hadd := hagree.add hsize (Pointwise.pick (ho.append []) s.sources)
      rw [List.append_nil] at hadd
      exact ⟨b, images, groups, rfl, hmirrored.shuffle hk, List.append_nil _,
        by simp [hsize], hadd⟩
    · obtain rfl : results'.length = count := by
        rw [hcount', ← hcount, List.length_range']
      have hselected := hmirrored.registers ▸ hsel
      have htranslated := translated_of_selected hselected hs rfl ho fun hk hf =>
        hreads'.length_eq.symm.trans (hparameters n (by simp) hk hf)
      refine ⟨b.grow results'.length i, images ++ results', groups ++ [more], rfl,
        hmirrored.grow hsel.isCoded htranslated, by simp, by simp [hsize], ?_⟩
      rw [← hmirrored.registers]
      exact hagree.add hsize (imaged_append images results')

end Mirrored

/-! ### Definitions -/

/-- No type of the signature is open. -/
def Signature.Closed (s : Signature) : Prop := .any ∉ s.inputs ∧ .any ∉ s.outputs

/-- Both targets have a function for the word, as it is declared with its signature: the symbol is
plain, and the types are those of the signature. -/
def Corresponding (m : Machine) (routines : FunctionTable Machine.target)
    (functions : FunctionTable IRModule.target) (callee : Callee) : Prop :=
  ∃ (r : RoutineId) (routine : Routine) (f : IRFunction), routines[callee.word]? = some (some r) ∧
    m.routines[r]? = some routine ∧ routine.signature = callee.signature ∧
    functions[callee.word]? = some (some f) ∧ f.Typed ∧ IsPlain f.symbol ∧
    f.signature = callee.signature

section Corresponding
variable {m : Machine} {routines : FunctionTable Machine.target}
  {functions : FunctionTable IRModule.target}

theorem Corresponding.function {callee : Callee} {f : IRFunction}
    (h : Corresponding m routines functions callee)
    (hf : (functions[callee.word]?).join = some f) :
    IsPlain f.symbol ∧ f.Typed ∧ f.signature = callee.signature := by
  obtain ⟨-, -, f', -, -, -, hf', htyped, hplain, hsignature⟩ := h
  rw [hf'] at hf
  cases hf
  exact ⟨hplain, htyped, hsignature⟩

theorem covers_of_corresponding {V : Vocabulary}
    (h : ∀ callee, V callee → Corresponding m routines functions callee) :
    IRModule.Covers functions V := by
  intro callee hc
  obtain ⟨-, -, f, -, -, -, hf, htyped, -, hsignature⟩ := h callee hc
  exact ⟨f, by rw [hf]; rfl, htyped.length_results.trans (congrArg _ hsignature)⟩

theorem Corresponding.length_parameters {callee : Callee} {f : IRFunction}
    (h : Corresponding m routines functions callee)
    (hf : (functions[callee.word]?).join = some f) :
    f.parameters.length = callee.signature.inputArity := by
  obtain ⟨-, htyped, hsignature⟩ := h.function hf
  exact (Except.mapM_eq_ok.mp htyped.parameters).length_eq.symm.trans
    (congrArg Signature.inputArity hsignature)

end Corresponding

/-- The body on the machine and that of a module as it is written, both for the definition: registers
are turned into operands, instructions into groups of instructions, and what the one returns into what
the other returns. -/
def Definition.Mirrored (d : Definition) (routines : FunctionTable Machine.target)
    (functions : FunctionTable IRModule.target) (strings : Array String) (f : IRFunction) (b : Body)
    (b' : IRBody) : Prop :=
  ∃ images groups operands,
    MirroredCode routines functions strings d.graph.nodes.toList b images groups ∧
      Imaged images b.outputs operands ∧ operands.length = f.results.length ∧
      b' = (IRBody.ofCode f groups.flatten operands).written

section Generate
variable {V : Vocabulary} {d : Definition} {routines : FunctionTable Machine.target}
  {functions : FunctionTable IRModule.target}

theorem exists_body_of_generate {strings : Array String} {m m' : Machine} {r : RoutineId}
    {s : Signature} {table' : Table IROperand} {code : List IRInstruction}
    {operands' : List IROperand} (hd : d.Sound V) (hs : d.signature = .ok s)
    (h : Session.generate d routines m = .ok r m')
    (hl : IRModule.Lowered functions strings d.graph.nodes.toList table' code)
    (hreads' : table'.Reads d.outputs operands')
    (hparameters : ∀ {callee f}, d.Calls callee → (functions[callee.word]?).join = some f →
      f.parameters.length = callee.signature.inputArity) : ∃ b images groups,
      m'.routines[r]? = some { name := d.name, symbol := d.name, signature := s, body := some b } ∧
        MirroredCode routines functions strings d.graph.nodes.toList b images groups ∧
        Imaged images b.outputs operands' ∧ code = groups.flatten := by
  obtain ⟨start, stop, s', b, rs, operands, hstart, rfl, hgen, hreads, hs', rfl, rfl⟩ :=
    Machine.generated_of_generate hd h
  cases hs.symm.trans hs'
  obtain ⟨b', images, groups, hb', hmirrored, hcode, -, hagree⟩ :=
    mirrored_of_generated hstart hgen hl fun n hn {callee f} hk hf => by
      obtain ⟨id, hid⟩ := Graph.exists_node?_of_mem hn
      obtain ⟨kind, inputs⟩ := n
      obtain rfl : kind = .call callee := hk
      exact (hd.graph.ordered.length hid).trans (hparameters ⟨id, inputs, hid⟩ hf).symm
  cases hb'
  exact ⟨{ b with outputs := operands }, images, groups, Array.getElem?_push_size,
    ⟨hmirrored.registers, hmirrored.count, hmirrored.steps⟩, hagree.reads hreads hreads', hcode⟩

theorem exists_lowered_types {types : List ValueType} (hnull : .null ∉ types)
    (hany : .any ∉ types) : ∃ lowered, types.mapM IRType.ofValueType = .ok lowered := by
  have htypes : ∀ type ∈ types, ∃ lowered, IRType.ofValueType type = .ok lowered := by
    intro type htype
    cases type with
    | null => exact absurd htype hnull
    | any => exact absurd htype hany
    | int32 | float | string => exact ⟨_, rfl⟩
  obtain ⟨lowered, h⟩ := Pointwise.exists_of_forall htypes
  exact ⟨lowered, Except.mapM_eq_ok.mpr h⟩

/-- A body that has been generated is found again in its lines. -/
theorem legible_of_corresponding {strings : Array String} {m : Machine} {f : IRFunction}
    {table : Table IROperand} {code : List IRInstruction} {operands : List IROperand}
    (hd : d.Sound d.Calls) (hs : d.signature = .ok f.signature) (hf : f.Typed)
    (hplain : IsPlain f.symbol)
    (hcallees : ∀ callee, d.Calls callee → Corresponding m routines functions callee)
    (hl : IRModule.Lowered functions strings d.graph.nodes.toList table code)
    (hreads : table.Reads d.outputs operands) : (IRBody.ofCode f code operands).Legible := by
  have hknows : IRModule.Knows (fun g => IsPlain g.symbol) functions d.Calls :=
    fun hc hf => (hcallees _ hc).function hf
  exact (hl.wellFormed hreads hd hf hs hknows).legible hf hplain fun _ h => h

end Generate

/-- A definition of a session with a closed signature has code on both targets, whatever functions
they have for the words that it calls. Its body in the text of the module stands behind those that
were there, and as it is read from there it corresponds to its body on the machine; the strings that
it names are the constants there. -/
theorem generate_mirrored {T : Target} {target : T.State} {s : Session T}
    (h : Session.Reachable target s) {id : WordId} {w : Word} {d : Definition}
    (hw : s.dictionary.word? id = some w) (hk : w.kind = .compiled d) {signature : Signature}
    (hs : d.signature = .ok signature) (hclosed : signature.Closed) {m : Machine} {l : IRModule}
    {routines : FunctionTable Machine.target} {functions : FunctionTable IRModule.target}
    (hcallees : ∀ callee, d.Calls callee → Corresponding m routines functions callee) :
    ∃ r m' f l' lines b b', Session.generate d routines m = .ok r m' ∧
      Session.generate d functions l = .ok f l' ∧
      m'.routines[r]? =
        some { name := d.name, symbol := d.name, signature := signature, body := some b } ∧
      f.signature = signature ∧
      l'.text =
        linesText (l'.headLines ++ l'.stringLines ++ l.bodies.toList.flatMap IRBody.lines) ++
          linesText lines ++ linesText l'.declareLines ∧
      bodies? (textLines (linesText lines)) = some [b'] ∧
      (textLines (linesText l'.stringLines)).filterMap constant? =
        l'.strings.toList.zipIdx.map (fun x => StringConstant.ofText x.2 x.1) ∧
      d.Mirrored routines functions l'.strings f b b' := by
  have hd : d.Sound d.Calls := (h.sound.compiled hw hk).calls
  have hvalued := h.valued _ _ _ hw ((Word.signature_of_compiled hk).trans hs)
  obtain ⟨r, m', hm'⟩ := Machine.exists_generate_of_words hd fun c hc => by
    obtain ⟨r, routine, f, hr, hroutine, hsignature, -⟩ := hcallees c hc
    exact ⟨r, routine, hr, hroutine, hsignature⟩
  obtain ⟨parameters, hparameters⟩ := exists_lowered_types hvalued.1 hclosed.1
  obtain ⟨results, hresults⟩ := exists_lowered_types hvalued.2 hclosed.2
  obtain ⟨f, l₁, hdeclare⟩ := IRModule.exists_declare hparameters hresults d.name d.name l
  obtain ⟨l', hl'⟩ := IRModule.exists_generate hd (covers_of_corresponding hcallees) hs hdeclare
  obtain ⟨l₂, table, code, operands, strings, uses, hs', htyped, hdeclare', hlowered, hreads, -, rfl⟩ :=
    IRModule.generate_eq_ok hd hl'
  have hlegible := legible_of_corresponding hd hs' htyped
    (IRModule.isPlain_of_declare d.name hdeclare') hcallees hlowered hreads
  obtain ⟨b, images, groups, hroutine, hmirrored, houtputs, rfl⟩ :=
    exists_body_of_generate hd hs hm' hlowered hreads fun hc hf =>
      (hcallees _ hc).length_parameters hf
  have hbodies : (l₂.withBody f groups.flatten operands strings uses).bodies =
      l.bodies.push (.ofCode f groups.flatten operands) := by
    rw [IRModule.bodies_withBody, IRModule.bodies_of_declare _ hdeclare']
  refine ⟨r, m', f, _, _, b, _, hm', hl', hroutine, (Except.ok.inj (hs.symm.trans hs')).symm,
    IRModule.text_push hbodies, hlegible.bodies?_text, IRModule.constants_stringLines _, ?_⟩
  rw [IRModule.strings_withBody]
  exact ⟨images, groups, operands, hmirrored, houtputs,
    hreads.length_eq.symm.trans (IRModule.length_outputs htyped hs'), rfl⟩

/-! ### Words of sessions -/

/-- The words of a dictionary have corresponding functions, if both targets have entered them. -/
theorem corresponding_of_linked {dictionary : Dictionary} {m : Machine} {l : IRModule}
    {routines : FunctionTable Machine.target} {functions : FunctionTable IRModule.target}
    (hv : Machine.Linked dictionary m routines) (hl : IRModule.Linked dictionary l functions)
    {fs : List IRFunction} (hd : IRModule.Defines dictionary l functions fs)
    {callee : Callee} (hc : dictionary.vocabulary callee) :
    Corresponding m routines functions callee := by
  obtain ⟨w, hw, hu, -, hs⟩ := hc
  obtain ⟨r, routine, hr, hroutine, hsignature, -⟩ := hv.exists_routine hw hu
  obtain ⟨f, hf, hsignature', b, hmem⟩ := hl.answers hw hu
  exact ⟨r, routine, f, hr, hroutine, Except.ok.inj (hsignature.symm.trans hs), hf,
    hl.coherent.typed hmem, hd.plain hmem, Except.ok.inj (hsignature'.symm.trans hs)⟩

def resumming : String := "extern split ( f -- f i ) : resum dup split i>f *. +. ;"

theorem generate_mirrored_resumming : ∃ d,
    ((Session.ofText resumming).dictionary.word? 24).map Word.kind = some (.compiled d) ∧
    d.signature = .ok ⟨[.float], [.float]⟩ ∧ ∃ r m' f l' lines b b',
      Session.generate d (Session.ofText resumming).functions (Session.ofText resumming).target =
        .ok r m' ∧
      Session.generate d (Session.ofModuleText resumming).functions
        (Session.ofModuleText resumming).target = .ok f l' ∧
      m'.routines[r]? = some
        { name := d.name, symbol := d.name, signature := ⟨[.float], [.float]⟩, body := some b } ∧
      f.signature = ⟨[.float], [.float]⟩ ∧
      l'.text = linesText (l'.headLines ++ l'.stringLines ++
          (Session.ofModuleText resumming).target.bodies.toList.flatMap IRBody.lines) ++
        linesText lines ++ linesText l'.declareLines ∧
      bodies? (textLines (linesText lines)) = some [b'] ∧
      (textLines (linesText l'.stringLines)).filterMap constant? =
        l'.strings.toList.zipIdx.map (fun x => StringConstant.ofText x.2 x.1) ∧
      d.Mirrored (Session.ofText resumming).functions (Session.ofModuleText resumming).functions
        l'.strings f b b' := by
  have hlatest : (Session.ofText resumming).dictionary.latestDefinition = some 24 := by
    decide +kernel
  obtain ⟨w, d, hw, -, hk⟩ := Dictionary.latestDefinition_eq_some hlatest
  have hs : d.signature = .ok ⟨[.float], [.float]⟩ := by
    have hsignature : ((Session.ofText resumming).dictionary.word? 24).map Word.signature =
        some (.ok ⟨[.float], [.float]⟩) := by decide +kernel
    rw [hw] at hsignature
    exact (Word.signature_of_compiled hk).symm.trans (Option.some.inj hsignature)
  have hv := (Session.reachable_ofText resumming).linked
  have hl := (Session.reachable_ofModuleText resumming).linked_module
  obtain ⟨fs, hdefines⟩ := (Session.reachable_ofModuleText resumming).defines
  have hsame : (Session.ofModuleText resumming).dictionary =
      (Session.ofText resumming).dictionary := by decide +kernel
  rw [hsame] at hl hdefines
  refine ⟨d, by rw [hw]; exact congrArg some hk, hs, ?_⟩
  exact generate_mirrored (Session.reachable_ofText resumming) hw hk hs
    ⟨by decide, by decide⟩ fun callee ⟨_, _, hn⟩ =>
      corresponding_of_linked hv hl hdefines ((hv.sound.compiled hw hk).graph.words hn)

end StackEffect
