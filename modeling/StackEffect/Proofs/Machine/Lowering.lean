import StackEffect.MachineTarget
import StackEffect.Proofs.Definition.Meaning
import StackEffect.Proofs.Emission

/-!
Register code computes what its definition means. Every node but a shuffle becomes one instruction
that writes registers of its own (`Selected`), so that the registers mirror the values of the nodes
while the code runs (`Lowered`), whatever the calls do.
-/
namespace StackEffect

/-! ### Registers -/

namespace RegisterFile
variable {rs : RegisterFile}

@[simp] theorem size_write (rs : RegisterFile) (r : Register) (x : Option Value) :
    (rs.write r x).size = rs.size := by
  simp [write]

theorem read_write_of_ne {r r' : Register} (x : Option Value) (h : r' ≠ r) :
    (rs.write r x).read r' = rs.read r' := by
  simp only [read, write, Array.getElem?_setIfInBounds, if_neg (Ne.symm h)]

theorem read_write {r : Register} (x : Value) (h : r < rs.size) :
    (rs.write r (some x)).read r = .ok x := by
  simp [read, write, h]

theorem writeAll_range' (values : List Value) (rs : RegisterFile) (first : Nat)
    (h : first + values.length ≤ rs.size) :
    (rs.writeAll (List.range' first values.length) values).size = rs.size ∧
      (∀ r < first, (rs.writeAll (List.range' first values.length) values).read r = rs.read r) ∧
      List.Forall₂ (fun r x => (rs.writeAll (List.range' first values.length) values).read r = .ok x)
        (List.range' first values.length) values := by
  induction values generalizing rs first with
  | nil => exact ⟨rfl, fun _ _ => rfl, .nil⟩
  | cons x values ih =>
    rw [List.length_cons] at h
    have hlt : first < rs.size := by omega
    obtain ⟨hsize, hold, hnew⟩ := ih (rs.write first (some x)) (first + 1) (by
      rw [size_write]
      omega)
    have hwrite : rs.writeAll (List.range' first (x :: values).length) (x :: values) =
        (rs.write first (some x)).writeAll (List.range' (first + 1) values.length) values := rfl
    rw [hwrite]
    refine ⟨hsize.trans (size_write ..), fun r hr => ?_, ?_⟩
    · rw [hold r (Nat.lt_succ_of_lt hr), read_write_of_ne _ (Nat.ne_of_lt hr)]
    · refine .cons ?_ hnew
      rw [hold first (Nat.lt_succ_self _), read_write x hlt]

end RegisterFile

namespace Machine

/-! ### One instruction for each node -/

/-- What a call does in a body, given what routines do. -/
def invoke (functions : FunctionTable Machine.target)
    (call : RoutineId → List Value → Action String (List Value)) : Calls := fun callee arguments =>
  match (functions[callee.word]?).join with
  | some id => do
    let results ← call id arguments
    if results.length = callee.signature.outputArity then return results
    else throw (.runtime (.resultCount id results.length callee.signature.outputArity))
  | none => throw (.unsupported (.calleeNotCompiled callee.name))

theorem counted_invoke (functions : FunctionTable Machine.target)
    (call : RoutineId → List Value → Action String (List Value)) :
    (invoke functions call).Counted := by
  intro callee arguments
  unfold invoke
  cases (functions[callee.word]?).join with
  | none => exact .throw trivial
  | some id =>
    refine .bind (.trivial _) fun results _ => ?_
    by_cases h : results.length = callee.signature.outputArity
    · simpa only [h, if_true] using .pure h
    · simpa only [h, if_false] using .throw trivial

/-- The instruction for a node that is no shuffle; it writes `count` registers from `first` on. -/
inductive Selected (functions : FunctionTable Machine.target) (first : Register) :
    NodeKind → List Register → Nat → Instruction → Prop
  | literal (value : Value) (operands : List Register) :
      Selected functions first (.literal value) operands 1 (.constant first value)
  | argument (index : Nat) (type : ValueType) (operands : List Register) :
      Selected functions first (.argument index type) operands 1 (.argument first index)
  | binary (op : BinaryOp) (type : ValueType) (left right : Register) :
      Selected functions first (.primitive (.binary op type)) [left, right] 1
        (.binary first op left right)
  | cast (c : Cast) (source : Register) :
      Selected functions first (.primitive (.cast c)) [source] 1 (.cast first c source)
  | call {callee : Callee} {id : RoutineId} (operands : List Register) (count : Nat) :
      (functions[callee.word]?).join = some id →
      Selected functions first (.call callee) operands count
        (.call (List.range' first count) id operands)

theorem stored {rs : RegisterFile} {first : Nat} (h : first + 1 ≤ rs.size) (x : Value) :
    (rs.write first (some x)).size = rs.size ∧
      (∀ r < first, (rs.write first (some x)).read r = rs.read r) ∧
      List.Forall₂ (fun r x' => (rs.write first (some x)).read r = .ok x')
        (List.range' first 1) [x] := by
  refine ⟨RegisterFile.size_write .., fun r hr => ?_, .cons ?_ .nil⟩
  · exact RegisterFile.read_write_of_ne _ (Nat.ne_of_lt hr)
  · exact RegisterFile.read_write x h

/-- The instruction computes what the node means. -/
theorem Selected.step {functions : FunctionTable Machine.target} {first : Register}
    {kind : NodeKind} {operands : List Register} {count : Nat} {i : Instruction}
    (h : Selected functions first kind operands count i)
    (call : RoutineId → List Value → Action String (List Value)) {arguments values : List Value}
    {rs : RegisterFile} (hcount : count = kind.outputArity) (hsize : first + count ≤ rs.size)
    (hargs : ∀ {index type}, kind = .argument index type → index < arguments.length)
    (hreads : List.Forall₂ (fun r x => rs.read r = .ok x) operands values) (out : String) :
    match kind.eval (invoke functions call) arguments values out with
    | .ok results out' => ∃ rs', Machine.step call arguments rs i out = .ok rs' out' ∧
        rs'.size = rs.size ∧ (∀ r < first, rs'.read r = rs.read r) ∧
        List.Forall₂ (fun r x => rs'.read r = .ok x) (List.range' first count) results
    | .error e out' => Machine.step call arguments rs i out = .error e out' := by
  cases h with
  | literal value => exact ⟨_, rfl, stored hsize value⟩
  | argument index type =>
    have hx := List.getElem?_eq_getElem (hargs rfl)
    simp only [NodeKind.eval, Machine.step, hx, Option.toList, Action.pure_apply]
    exact ⟨_, rfl, stored hsize _⟩
  | binary op type left right =>
    obtain ⟨a, _, hl, hright, rfl⟩ := List.forall₂_cons_left_iff.mp hreads
    obtain ⟨b, _, hr, hnil, rfl⟩ := List.forall₂_cons_left_iff.mp hright
    cases hnil
    simp only [NodeKind.eval, Primitive.eval, Machine.step, Action.bind_apply, hl, hr,
      Action.ofExcept_ok]
    cases op.apply a b with
    | error e => rfl
    | ok x => exact ⟨_, rfl, stored hsize x⟩
  | cast c source =>
    obtain ⟨a, _, ha, hnil, rfl⟩ := List.forall₂_cons_left_iff.mp hreads
    cases hnil
    simp only [NodeKind.eval, Primitive.eval, Machine.step, Action.bind_apply, ha,
      Action.ofExcept_ok]
    cases c.apply a with
    | error e => rfl
    | ok x => exact ⟨_, rfl, stored hsize x⟩
  | @call callee id operands count hf =>
    have hvalues : operands.mapM rs.read = .ok values := Except.mapM_eq_ok.mpr hreads
    simp only [NodeKind.eval, Machine.step, invoke, hf, hvalues, Action.bind_apply,
      Action.ofExcept_ok, List.length_range']
    cases call id values out with
    | error e out' => rfl
    | ok results out' =>
      have hcount' : callee.signature.outputArity = count := hcount.symm
      simp only [hcount']
      by_cases hl : results.length = count
      · subst hl
        simp only [if_true, Action.pure_apply]
        exact ⟨_, rfl, RegisterFile.writeAll_range' results rs first hsize⟩
      · simp only [hl, if_false]
        rfl

/-! ### Selection of instructions -/

end Machine

def Body.grow (b : Body) (count : Nat) (i : Instruction) : Body :=
  { b with registers := b.registers + count, code := b.code.push i }

namespace Machine

theorem emit_of_building {m : Machine} {b : Body} (hb : m.building = some b) (count : Nat)
    (i : Register → Instruction) : emit count i m =
      .ok b.registers { m with building := some (b.grow count (i b.registers)) } := by
  simp only [emit, hb]
  rfl

theorem emit_eq_ok {g : Graph} {functions : FunctionTable Machine.target} {id : NodeId}
    {kind : NodeKind} {operands results : List Register} {m m' : Machine} {b : Body}
    (hb : m.building = some b)
    (h : Emission.emit g functions id kind operands m = .ok results m') :
    (∃ s, kind = .primitive (.shuffle s) ∧ results = s.sources.filterMap (operands[·]?) ∧ m' = m) ∨
      ∃ count i, Selected functions b.registers kind operands count i ∧
        results = List.range' b.registers count ∧
        m' = { m with building := some (b.grow count i) } := by
  -- An emitted instruction goes to the end of the body that is being built.
  have hone : ∀ {count i r m₁}, emit count i m = .ok r m₁ →
      r = b.registers ∧ m₁ = { m with building := some (b.grow count (i b.registers)) } := by
    intro count i r m₁ he
    rw [emit_of_building hb] at he
    cases he
    exact ⟨rfl, rfl⟩
  unfold Emission.emit at h
  cases kind with
  | literal value =>
    obtain ⟨r, m₁, hr, h⟩ := Action.bind_eq_ok.mp h
    have hr' : emit 1 (fun r => .constant r value) m = .ok r m₁ := hr
    obtain ⟨rfl, rfl⟩ := hone hr'
    cases h
    exact .inr ⟨1, _, .literal value operands, rfl, rfl⟩
  | argument index type =>
    obtain ⟨t, m₀, ht, h⟩ := Action.bind_eq_ok.mp h
    obtain ⟨-, rfl⟩ := Action.ofExcept_eq_ok.mp ht
    obtain ⟨r, m₁, hr, h⟩ := Action.bind_eq_ok.mp h
    have hr' : emit 1 (fun r => .argument r index) m = .ok r m₁ := hr
    obtain ⟨rfl, rfl⟩ := hone hr'
    cases h
    exact .inr ⟨1, _, .argument index type operands, rfl, rfl⟩
  | primitive p =>
    cases p with
    | shuffle s =>
      cases h
      exact .inl ⟨s, rfl, rfl, rfl⟩
    | binary op type =>
      match operands with
      | [left, right] =>
        obtain ⟨r, m₁, hr, h⟩ := Action.bind_eq_ok.mp h
        obtain ⟨rfl, rfl⟩ := hone hr
        cases h
        exact .inr ⟨1, _, .binary op type left right, rfl, rfl⟩
      | [] => cases h
      | [_] => cases h
      | _ :: _ :: _ :: _ => cases h
    | cast c =>
      match operands with
      | [source] =>
        obtain ⟨r, m₁, hr, h⟩ := Action.bind_eq_ok.mp h
        obtain ⟨rfl, rfl⟩ := hone hr
        cases h
        exact .inr ⟨1, _, .cast c source, rfl, rfl⟩
      | [] => cases h
      | _ :: _ :: _ => cases h
  | call callee =>
    cases hf : (functions[callee.word]?).join with
    | none =>
      simp only [hf] at h
      cases h
    | some id =>
      simp only [hf] at h
      change emitCall id operands m = .ok results m' at h
      rw [emitCall, Action.bind_of_ok (Action.get_apply m)] at h
      cases hroutine : m.routines[id]? with
      | none =>
        simp only [hroutine] at h
        cases h
      | some routine =>
        simp only [hroutine] at h
        obtain ⟨r, m₁, hr, h⟩ := Action.bind_eq_ok.mp h
        obtain ⟨rfl, rfl⟩ := hone hr
        cases h
        exact .inr ⟨_, _, .call operands _ hf, rfl, rfl⟩

/-! ### Whole bodies -/

/-- The registers of the outputs hold the values of the outputs. -/
def Mirrors (rs : RegisterFile) (table : Table Register) (v : Valuation) : Prop :=
  ∀ {o r}, table.value? o = some r → ∃ x, v.value? o = some x ∧ rs.read r = .ok x

theorem Mirrors.reads {rs : RegisterFile} {table : Table Register} {v : Valuation}
    {os : List Output} {operands : List Register} (h : Mirrors rs table v)
    (hreads : table.Reads os operands) : ∃ values, v.Reads os values ∧
      List.Forall₂ (fun r x => rs.read r = .ok x) operands values := by
  induction hreads with
  | nil => exact ⟨[], .nil, .nil⟩
  | cons hr _ ih =>
    obtain ⟨x, hx, hread⟩ := h hr
    obtain ⟨values, hvalues, hrest⟩ := ih
    exact ⟨x :: values, .cons hx hvalues, .cons hread hrest⟩

theorem Mirrors.add {rs rs' : RegisterFile} {table : Table Register} {v : Valuation}
    {results : List Register} {values : List Value} (h : Mirrors rs table v)
    (hsize : table.size = v.size)
    (hold : ∀ {o r}, table.value? o = some r → rs'.read r = rs.read r)
    (hnew : List.Forall₂ (fun r x => rs'.read r = .ok x) results values) :
    Mirrors rs' (table.add results) (v.add values) := by
  intro o r hr
  rcases Table.value?_add_eq_some.mp hr with hr | ⟨index, rfl, hi⟩
  · obtain ⟨x, hx, hread⟩ := h hr
    exact ⟨x, Table.value?_add_of_some _ hx, (hold hr).trans hread⟩
  · obtain ⟨x, hx, hread⟩ := Pointwise.right_of_left hnew hi
    rw [hsize, Table.value?_add_size]
    exact ⟨x, hx, hread⟩

/-- The code of the body evaluates the nodes, in register files that are large enough. -/
structure Lowered (functions : FunctionTable Machine.target) (nodes : List Node)
    (table : Table Register) (b : Body) : Prop where
  size : table.size = nodes.length
  below : ∀ {o r}, table.value? o = some r → r < b.registers
  run : ∀ (call : RoutineId → List Value → Action String (List Value)) (arguments : List Value)
    (count : Nat) (out : String), b.registers ≤ count →
    (∀ n ∈ nodes, ∀ index type, n.kind = .argument index type → index < arguments.length) →
    match evaluate (invoke functions call) arguments nodes #[] out with
    | .ok v out' => v.size = nodes.length ∧
        ∃ rs, b.code.toList.foldlM (Machine.step call arguments) (Array.replicate count none) out =
          .ok rs out' ∧ rs.size = count ∧ Mirrors rs table v
    | .error e out' => b.code.toList.foldlM (Machine.step call arguments)
        (Array.replicate count none) out = .error e out'

theorem Lowered.empty (functions : FunctionTable Machine.target) :
    Lowered functions [] #[] {} where
  size := rfl
  below h := absurd (Table.lt_size_of_value? h) (Nat.not_lt_zero _)
  run _ _ _ _ _ _ :=
    ⟨rfl, _, rfl, Array.size_replicate, fun h =>
      absurd (Table.lt_size_of_value? h) (Nat.not_lt_zero _)⟩

theorem Lowered.extend {functions : FunctionTable Machine.target} {nodes : List Node}
    {table : Table Register} {b b' : Body} (h : Lowered functions nodes table b)
    {code : List Instruction} (hcode : b'.code.toList = b.code.toList ++ code)
    (hgrow : b.registers ≤ b'.registers) {n : Node} {operands results : List Register}
    (hreads : table.Reads n.inputs operands) (hbelow : ∀ r ∈ results, r < b'.registers)
    (hstep : ∀ (call : RoutineId → List Value → Action String (List Value))
      (arguments values : List Value) (rs : RegisterFile) (out : String),
      b'.registers ≤ rs.size →
      (∀ {index type}, n.kind = .argument index type → index < arguments.length) →
      List.Forall₂ (fun r x => rs.read r = .ok x) operands values →
      match n.kind.eval (invoke functions call) arguments values out with
      | .ok values' out' => ∃ rs', code.foldlM (Machine.step call arguments) rs out = .ok rs' out' ∧
          rs'.size = rs.size ∧ (∀ r < b.registers, rs'.read r = rs.read r) ∧
          List.Forall₂ (fun r x => rs'.read r = .ok x) results values'
      | .error e out' => code.foldlM (Machine.step call arguments) rs out = .error e out') :
    Lowered functions (nodes ++ [n]) (table.add results) b' := by
  constructor
  · simp [h.size]
  · intro o r hr
    rcases Table.value?_add_eq_some.mp hr with hr | ⟨index, rfl, hi⟩
    · exact Nat.lt_of_lt_of_le (h.below hr) hgrow
    · exact hbelow r (List.mem_of_getElem? hi)
  · intro call arguments count out hcount hargs
    have hrun := h.run call arguments count out (Nat.le_trans hgrow hcount) fun n' hn' =>
      hargs n' (List.mem_append_left _ hn')
    rw [evaluate_concat, hcode, List.foldlM_append, Action.bind_apply, Action.bind_apply]
    cases he : evaluate (invoke functions call) arguments nodes #[] out with
    | error e out' =>
      simp only [he] at hrun
      simp only [hrun]
    | ok v out' =>
      simp only [he] at hrun
      obtain ⟨hsize, rs, hfold, hrs, hmirrors⟩ := hrun
      obtain ⟨values, hvalues, hread⟩ := hmirrors.reads hreads
      have hn := hstep call arguments values rs out' (hrs.symm ▸ hcount)
        (fun hk => hargs n (List.mem_append_right _ (List.mem_singleton_self n)) _ _ hk) hread
      simp only [hfold, Node.eval, hvalues.filterMap_eq, Functor.map, EStateM.map]
      cases hv : n.kind.eval (invoke functions call) arguments values out' with
      | error e out'' =>
        simp only [hv] at hn
        exact hn
      | ok values' out'' =>
        simp only [hv] at hn
        obtain ⟨rs', hcode', hsize', hold, hnew⟩ := hn
        refine ⟨by simp [hsize], rs', hcode', hsize'.trans hrs, ?_⟩
        exact hmirrors.add (h.size.trans hsize.symm) (fun hr => hold _ (h.below hr)) hnew

theorem Lowered.shuffle {functions : FunctionTable Machine.target} {nodes : List Node}
    {table : Table Register} {b : Body} (h : Lowered functions nodes table b) {s : Shuffle}
    {inputs : List Output} {operands : List Register} (hreads : table.Reads inputs operands)
    (hl : inputs.length = s.arity) :
    Lowered functions (nodes ++ [⟨.primitive (.shuffle s), inputs⟩])
      (table.add (s.sources.filterMap (operands[·]?))) b := by
  refine h.extend (List.append_nil _).symm (Nat.le_refl _) hreads ?_ ?_
  · intro r hr
    obtain ⟨i, -, hi⟩ := List.mem_filterMap.mp hr
    obtain ⟨o, -, ho⟩ := Pointwise.left_of_right hreads hi
    exact h.below ho
  · intro call arguments values rs out _ _ hread
    have hvalues : values.length = s.arity := by
      rw [← hread.length_eq, ← hreads.length_eq, hl]
    simp only [NodeKind.eval, Primitive.eval, hvalues, if_true, Action.ofExcept_ok]
    exact ⟨rs, rfl, rfl, fun _ _ => rfl, Pointwise.pick hread s.sources⟩

theorem Lowered.grow {functions : FunctionTable Machine.target} {nodes : List Node}
    {table : Table Register} {b : Body} (h : Lowered functions nodes table b) {n : Node}
    {operands : List Register} {count : Nat} {i : Instruction}
    (hreads : table.Reads n.inputs operands)
    (hsel : Selected functions b.registers n.kind operands count i)
    (hcount : count = n.outputArity) :
    Lowered functions (nodes ++ [n]) (table.add (List.range' b.registers count))
      (b.grow count i) := by
  refine h.extend Array.toList_push (Nat.le_add_right _ _) hreads ?_ ?_
  · intro r hr
    exact (List.mem_range'_1.mp hr).2
  · intro call arguments values rs out hsize hargs hread
    have hstep := hsel.step call hcount hsize hargs hread out
    simpa [List.foldlM_cons] using hstep

theorem selected_of_generated {g : Graph} {functions : FunctionTable Machine.target}
    {m m' : Machine.target.State} {nodes : List Node} {table : Table Machine.target.Operand}
    (hm : Machine.building m = some {}) (h : Generated g functions m nodes table m') :
    ∃ b, m' = ({ m with building := some b } : Machine) ∧ ∀ i ∈ b.code,
      ∃ n ∈ nodes, ∃ first operands count, Selected functions first n.kind operands count i := by
  induction h with
  | none => exact ⟨{}, by rw [← hm], fun i hi => absurd hi (Array.not_mem_empty i)⟩
  | @node nodes table t n operands results t' _ _ hemit _ ih =>
    obtain ⟨b, rfl, hb⟩ := ih
    have hold : ∀ i ∈ b.code, ∃ n' ∈ nodes ++ [n], ∃ first operands count,
        Selected functions first n'.kind operands count i := by
      intro i hi
      obtain ⟨n', hn', hsel⟩ := hb i hi
      exact ⟨n', List.mem_append_left _ hn', hsel⟩
    rcases emit_eq_ok rfl hemit with ⟨-, -, -, rfl⟩ | ⟨count, i, hsel, -, rfl⟩
    · exact ⟨b, rfl, hold⟩
    · refine ⟨b.grow count i, rfl, fun i' hi' => ?_⟩
      rcases Array.mem_push.mp hi' with hi' | rfl
      · exact hold i' hi'
      · exact ⟨n, List.mem_append_right _ (List.mem_singleton_self n), _, _, _, hsel⟩

/-- The code that is generated for the first nodes of a graph evaluates them. -/
theorem lowered_of_generated {g : Graph} {functions : FunctionTable Machine.target}
    {m m' : Machine.target.State} {nodes : List Node} {table : Table Machine.target.Operand}
    (hm : Machine.building m = some {}) (hl : ∀ n ∈ nodes, n.inputs.length = n.inputArity)
    (h : Generated g functions m nodes table m') :
    ∃ b, m' = ({ m with building := some b } : Machine) ∧ Lowered functions nodes table b := by
  induction h with
  | none => exact ⟨{}, by rw [← hm], .empty functions⟩
  | @node nodes table t n operands results t' _ hreads hemit hcount ih =>
    obtain ⟨b, rfl, hb⟩ := ih fun n' hn' => hl n' (List.mem_append_left _ hn')
    have hn := hl n (List.mem_append_right _ (List.mem_singleton_self n))
    rcases emit_eq_ok rfl hemit with ⟨s, hs, rfl, rfl⟩ | ⟨count, i, hsel, rfl, rfl⟩
    · obtain ⟨kind, inputs⟩ := n
      obtain rfl : kind = _ := hs
      exact ⟨b, rfl, hb.shuffle hreads hn⟩
    · refine ⟨b.grow count i, rfl, hb.grow hreads hsel ?_⟩
      rw [← hcount, List.length_range']

def runBody (call : RoutineId → List Value → Action String (List Value)) (b : Body)
    (arguments : List Value) : Action String (List Value) := do
  let rs ← b.code.toList.foldlM (step call arguments) (Array.replicate b.registers none)
  Action.ofExcept (b.outputs.mapM (RegisterFile.read rs))

/-- The body does what the definition means, whatever the routines that it calls do. -/
def Realises (functions : FunctionTable Machine.target) (b : Body) (d : Definition) : Prop :=
  ∀ call arguments, arguments.length = d.arguments.length →
    runBody call b arguments = d.meaning (invoke functions call) arguments

theorem Lowered.realises {V : Vocabulary} {functions : FunctionTable Machine.target}
    {d : Definition} {table : Table Register} {b : Body} {operands : List Register}
    (h : Lowered functions d.graph.nodes.toList table b) (hd : d.Sound V)
    (hreads : table.Reads d.outputs operands) :
    Realises functions { b with outputs := operands } d := by
  intro call arguments hl
  funext out
  have hargs : ∀ n ∈ d.graph.nodes.toList, ∀ index type, n.kind = .argument index type →
      index < arguments.length := by
    intro n hn index type hk
    obtain ⟨id, hid⟩ := Graph.exists_node?_of_mem hn
    obtain ⟨kind, inputs⟩ := n
    cases hk
    exact hd.supplied hl hid
  have hrun := h.run call arguments b.registers out (Nat.le_refl _) hargs
  simp only [runBody, Definition.meaning, Graph.evaluate, Action.bind_apply]
  cases he : evaluate (invoke functions call) arguments d.graph.nodes.toList #[] out with
  | error e out' =>
    simp only [he] at hrun
    simp only [hrun]
  | ok v out' =>
    simp only [he] at hrun
    obtain ⟨-, rs, hfold, -, hmirrors⟩ := hrun
    obtain ⟨values, hvalues, hread⟩ := hmirrors.reads hreads
    simp only [hfold, Except.mapM_eq_ok.mpr hread, hvalues.filterMap_eq]
    rfl

theorem generated_of_compile {V : Vocabulary} {functions : FunctionTable Machine.target}
    {d : Definition} {function : RoutineId} {m m' : Machine}
    {cache : OperandCache Machine.target} (hd : d.Sound V)
    (h : d.compile function functions m = .ok cache m') :
    ∃ routine b table operands, m.routines[function]? = some routine ∧
      Generated d.graph functions ({ m with building := some {} } : Machine) d.graph.nodes.toList
        table ({ m with building := some b } : Machine) ∧
      table.Reads d.outputs operands ∧
      m' = { m with
        building := none
        routines := m.routines.setIfInBounds function
          { routine with body := some { b with outputs := operands } } } := by
  obtain ⟨m₁, m₂, table, operands, hbegin, hgen, hreads, hfinish⟩ :=
    Definition.generated_compile hd.graph.ordered (fun o ho => hd.outputs ho) h
  cases hbegin
  obtain ⟨b, rfl, -⟩ := selected_of_generated rfl hgen
  have hfinish : finishBody function operands { m with building := some b } = .ok () m' := hfinish
  simp only [finishBody] at hfinish
  cases hroutine : m.routines[function]? with
  | none =>
    simp only [hroutine] at hfinish
    cases hfinish
  | some routine =>
    simp only [hroutine] at hfinish
    cases hfinish
    exact ⟨routine, b, table, operands, rfl, hgen, hreads, rfl⟩

end Machine
end StackEffect
