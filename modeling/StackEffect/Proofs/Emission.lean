import StackEffect.Definition
import StackEffect.Proofs.Graph.Origin
import StackEffect.Proofs.Graph.Table
import StackEffect.Proofs.Pointwise
import StackEffect.Proofs.Sequencing

/-!
The order in which code is generated. In a graph whose nodes take outputs of earlier nodes only, the
cache makes the recursion a walk through the nodes in their order, with one call for each of them
(`generated_body`).
-/
namespace StackEffect
variable {T : Target}

/-- Whether a node becomes code, as a shuffle does not. -/
def NodeKind.isCoded : NodeKind → Bool
  | .primitive (.shuffle _) => false
  | _ => true

/-- Code for the first nodes of a graph, one call for each node in turn. `operands` holds the operands
of their outputs. -/
inductive Generated (g : Graph) (functions : FunctionTable T) (start : T.State) :
    List Node → Table T.Operand → T.State → Prop
  | none : Generated g functions start [] #[] start
  | node {nodes table t n operands results t'} : Generated g functions start nodes table t →
      table.Reads n.inputs operands →
      Emission.emit g functions nodes.length n.kind operands t = .ok results t' →
      results.length = n.outputArity →
      Generated g functions start (nodes ++ [n]) (table.add results) t'

theorem Generated.size {g : Graph} {functions : FunctionTable T} {start t : T.State}
    {nodes : List Node} {table : Table T.Operand} (h : Generated g functions start nodes table t) :
    table.size = nodes.length := by
  induction h with
  | none => rfl
  | node _ _ _ _ ih => simp [ih]

theorem Generated.filled {g : Graph} {functions : FunctionTable T} {start t : T.State}
    {nodes rest : List Node} {table : Table T.Operand} (hnodes : g.nodes.toList = nodes ++ rest)
    (h : Generated g functions start nodes table t) : table.Filled g := by
  induction h generalizing rest with
  | none => exact Table.filled_empty g
  | @node nodes table t n operands results t' hgen hreads hemit hl ih =>
    have hn : g.node? table.size = some n := by
      rw [hgen.size]
      exact Graph.node?_of_toList (by simpa using hnodes)
    exact (ih (by simpa using hnodes)).add hn hl

namespace Emission
variable {g : Graph} {functions : FunctionTable T} {e e' : Emission T} {table : Table T.Operand}

theorem cached?_store {id : NodeId} (hid : id < e.cache.size) (operands : List T.Operand) (a : NodeId) :
    (e.store id operands).cached? a = if a = id then some operands else e.cached? a := by
  rw [cached?, Emission.store, Array.getElem?_setIfInBounds]
  by_cases h : a = id
  · simp [h, hid]
  · rw [if_neg (Ne.symm h), if_neg h, cached?]

/-- The cache holds the operands of the nodes in the table, and has a place for every node. -/
structure Holds (e : Emission T) (table : Table T.Operand) (size : Nat) : Prop where
  places : e.cache.size = size
  cached : ∀ id : NodeId, e.cached? id = table[id]?

theorem Holds.empty (t : T.State) (g : Graph) : Holds ⟨t, emptyCache T g⟩ #[] g.size := by
  constructor
  · exact Array.size_replicate ..
  · intro id
    by_cases h : id < g.size <;> simp [cached?, emptyCache, h]

theorem Holds.store {size : Nat} (h : e.Holds table size) (hlt : table.size < size)
    (results : List T.Operand) : (e.store table.size results).Holds (table.add results) size := by
  constructor
  · simp [Emission.store, h.places]
  · intro id
    rw [cached?_store (h.places ▸ hlt), Table.getElem?_add, h.cached]

theorem nodeWithin_cached {depth : Nat} {id : NodeId} {operands : List T.Operand}
    (h : e.cached? id = some operands) :
    nodeWithin g functions (depth + 1) id e = .ok operands e := by
  unfold nodeWithin
  rw [Action.bind_of_ok (Action.get_apply e), h]
  rfl

theorem pick_eq_ok {operands : List T.Operand} {index : Nat} {operand : T.Operand} :
    pick operands index = .ok operand ↔ operands[index]? = some operand := by
  unfold pick
  cases operands[index]? <;> simp

theorem inputs_eq {size depth : Nat} {inputs : List Output} {operands : List T.Operand}
    (he : e.Holds table size) (hdepth : table.size ≤ depth) (h : table.Reads inputs operands) :
    (inputs.mapM fun (input : Output) => do
      Action.ofExcept (pick (← nodeWithin g functions depth input.node) input.index)) e =
        .ok operands e := by
  induction h with
  | nil => rfl
  | @cons o operand inputs operands hvalue _ ih =>
    obtain ⟨row, hrow, hpick⟩ := Option.bind_eq_some_iff.mp hvalue
    have hlt := Table.lt_size_of_value? hvalue
    obtain ⟨depth, rfl⟩ := Nat.exists_eq_succ_of_ne_zero
      (Nat.ne_of_gt (Nat.lt_of_le_of_lt (Nat.zero_le _) (Nat.lt_of_lt_of_le hlt hdepth)))
    have hcached : e.cached? o.node = some row := by rw [he.cached, hrow]
    have hfirst : (do Action.ofExcept (pick (← nodeWithin g functions (depth + 1) o.node) o.index) :
        Action (Emission T) T.Operand) e = .ok operand e := by
      rw [Action.bind_of_ok (nodeWithin_cached hcached)]
      exact Action.ofExcept_eq_ok.mpr ⟨pick_eq_ok.mpr hpick, rfl⟩
    rw [List.mapM_cons, Action.bind_of_ok hfirst, Action.bind_of_ok ih]
    rfl

/-- The next node takes the operands of its inputs from the cache, and its own go there if there are
as many as it has outputs. -/
theorem node_eq (functions : FunctionTable T) {n : Node} (hg : g.Ordered)
    (he : e.Holds table g.size) (hfilled : table.Filled g) (hn : g.node? table.size = some n) :
    ∃ operands, table.Reads n.inputs operands ∧ node g functions table.size e =
      match emit g functions table.size n.kind operands e.target with
      | .ok results t =>
        if results.length = n.outputArity then
          .ok results (({ e with target := t } : Emission T).store table.size results)
        else
          .error (.arity n.label (.resultCount results.length n.outputArity)) { e with target := t }
      | .error fault t => .error fault { e with target := t } := by
  have hlt := Graph.lt_size_of_node? hn
  have hreads := hfilled.reads_inputs hg hn
  refine ⟨_, hreads, ?_⟩
  obtain ⟨depth, hdepth⟩ := Nat.exists_eq_succ_of_ne_zero (Nat.ne_of_gt (Nat.lt_of_le_of_lt
    (Nat.zero_le _) hlt))
  have hnone : e.cached? table.size = none := by
    rw [he.cached, Array.getElem?_eq_none (Nat.le_refl _)]
  rw [node, hdepth, nodeWithin, Action.bind_of_ok (Action.get_apply e)]
  simp only [hnone, hn]
  rw [Action.bind_of_ok (inputs_eq he (Nat.le_of_lt_succ (hdepth ▸ hlt)) hreads),
    Action.bind_apply, onTarget, Action.within_apply]
  cases emit g functions table.size n.kind _ e.target with
  | ok results t =>
    by_cases hl : results.length = n.outputArity
    · simp only [hl, if_true]
      rfl
    · simp only [hl, if_false]
      rfl
  | error fault t => rfl

theorem node_eq_ok {n : Node} {results : List T.Operand} (hg : g.Ordered)
    (he : e.Holds table g.size) (hfilled : table.Filled g) (hn : g.node? table.size = some n)
    (h : node g functions table.size e = .ok results e') :
    ∃ operands t, table.Reads n.inputs operands ∧
      emit g functions table.size n.kind operands e.target = .ok results t ∧
      results.length = n.outputArity ∧
      e' = ({ e with target := t } : Emission T).store table.size results := by
  obtain ⟨operands, hreads, heq⟩ := node_eq functions hg he hfilled hn
  rw [heq] at h
  cases hemit : emit g functions table.size n.kind operands e.target with
  | ok results' t =>
    simp only [hemit] at h
    split_ifs at h with hl
    cases h
    exact ⟨operands, t, hreads, hemit, hl, rfl⟩
  | error fault t =>
    simp only [hemit] at h
    cases h

/-- The loop over all nodes generates each of them when its turn comes. -/
theorem generated_nodes {start : T.State} {nodes rest : List Node} {u : Unit} (hg : g.Ordered)
    (hnodes : g.nodes.toList = nodes ++ rest) (he : e.Holds table g.size)
    (hgen : Generated g functions start nodes table e.target)
    (h : ((List.range' nodes.length rest.length).forM fun id =>
      discard (node g functions id)) e = .ok u e') :
    ∃ table', Generated g functions start g.nodes.toList table' e'.target ∧
      e'.Holds table' g.size := by
  induction rest generalizing nodes table e with
  | nil =>
    cases h
    rw [List.append_nil] at hnodes
    exact ⟨table, hnodes ▸ hgen, he⟩
  | cons n rest ih =>
    have hn : g.node? table.size = some n := by
      rw [hgen.size]
      exact Graph.node?_of_toList hnodes
    rw [List.length_cons, List.range'_succ, Action.forM_cons] at h
    obtain ⟨_, e₁, h₁, h⟩ := Action.bind_eq_ok.mp h
    obtain ⟨results, h₁⟩ := Action.discard_eq_ok.mp h₁
    rw [← hgen.size] at h₁
    obtain ⟨operands, t, hreads, hemit, hl, rfl⟩ := node_eq_ok hg he (hgen.filled hnodes) hn h₁
    have he' : ({ e with target := t } : Emission T).Holds table g.size := ⟨he.places, he.cached⟩
    have hnext := hgen.node hreads (hgen.size ▸ hemit) hl
    have hlength : nodes.length + 1 = (nodes ++ [n]).length := by simp
    rw [hlength] at h
    exact ih (by simpa using hnodes) (he'.store (Graph.lt_size_of_node? hn) results) hnext h

theorem generated_body {t : T.State} {outputs : List Output} {operands : List T.Operand}
    (hg : g.Ordered) (houtputs : ∀ o ∈ outputs, g.Produces o)
    (h : body g functions outputs ⟨t, emptyCache T g⟩ = .ok operands e') :
    ∃ table, Generated g functions t g.nodes.toList table e'.target ∧
      table.Reads outputs operands := by
  obtain ⟨_, e₁, h₁, h₂⟩ := Action.bind_eq_ok.mp h
  have hsize : g.size = g.nodes.toList.length := Array.length_toList.symm
  have hsplit : g.nodes.toList = [] ++ g.nodes.toList := rfl
  rw [List.range_eq_range', hsize] at h₁
  obtain ⟨table, hgen, he⟩ := generated_nodes hg hsplit (.empty t g) .none h₁
  have hfull : table.size = g.size := hgen.size.trans Array.length_toList
  have hreads := (hgen.filled (List.append_nil _).symm).reads fun o ho =>
    ⟨houtputs o ho, hfull ▸ (houtputs o ho).lt_size⟩
  cases h₂.symm.trans (inputs_eq he (Nat.le_of_eq hfull) hreads)
  exact ⟨table, hgen, hreads⟩

end Emission

/-- The code of a definition: a call for each node between the begin and the end of the body. -/
theorem Definition.generated_compile {d : Definition} {function : T.Function}
    {functions : FunctionTable T} {t t' : T.State} {cache : OperandCache T} (hg : d.graph.Ordered)
    (houtputs : ∀ o ∈ d.outputs, d.graph.Produces o)
    (h : d.compile function functions t = .ok cache t') :
    ∃ t₁ t₂ table operands, T.beginBody function t = .ok () t₁ ∧
      Generated d.graph functions t₁ d.graph.nodes.toList table t₂ ∧
      table.Reads d.outputs operands ∧ T.finishBody function operands t₂ = .ok () t' := by
  obtain ⟨_, t₁, hbegin, hrest⟩ := Action.bind_eq_ok.mp h
  obtain ⟨⟨operands, cache'⟩, t₂, hbody, hrest⟩ := Action.bind_eq_ok.mp hrest
  obtain ⟨_, t₃, hfinish, hrest⟩ := Action.bind_eq_ok.mp hrest
  cases hrest
  unfold Emission.withCache at hbody
  split at hbody
  · rename_i hb
    cases hbody
    obtain ⟨table, hgen, hreads⟩ := Emission.generated_body hg houtputs hb
    exact ⟨t₁, _, table, operands, hbegin, hgen, hreads, hfinish⟩
  · cases hbody

/-! ### Code for every graph -/

namespace Emission
variable {g : Graph} {functions : FunctionTable T} {e : Emission T} {table : Table T.Operand}
  {P : T.State → Prop}

/-- In a state of the kind `P` there is code for each node of the graph, given an operand for each of
its inputs. -/
def Emits (g : Graph) (functions : FunctionTable T) (P : T.State → Prop) : Prop :=
  ∀ {id n operands t}, g.node? id = some n → operands.length = n.inputs.length → P t →
    ∃ results t', emit g functions id n.kind operands t = .ok results t' ∧
      results.length = n.outputArity ∧ P t'

theorem exists_node {n : Node} (hg : g.Ordered) (hT : Emits g functions P)
    (he : e.Holds table g.size) (hfilled : table.Filled g) (hP : P e.target)
    (hn : g.node? table.size = some n) :
    ∃ results t, node g functions table.size e =
        .ok results (({ e with target := t } : Emission T).store table.size results) ∧
      results.length = n.outputArity ∧ P t := by
  obtain ⟨operands, hreads, heq⟩ := node_eq functions hg he hfilled hn
  obtain ⟨results, t, hemit, hl, ht⟩ := hT hn hreads.length_eq.symm hP
  refine ⟨results, t, ?_, hl, ht⟩
  rw [heq, hemit]
  exact if_pos hl

theorem exists_nodes {nodes rest : List Node} (hg : g.Ordered) (hT : Emits g functions P)
    (hnodes : g.nodes.toList = nodes ++ rest) (hsize : table.size = nodes.length)
    (he : e.Holds table g.size) (hfilled : table.Filled g) (hP : P e.target) :
    ∃ e' table', ((List.range' nodes.length rest.length).forM fun id =>
        discard (node g functions id)) e = .ok () e' ∧
      table'.size = g.size ∧ e'.Holds table' g.size ∧ table'.Filled g ∧ P e'.target := by
  induction rest generalizing nodes table e with
  | nil =>
    rw [List.append_nil] at hnodes
    exact ⟨e, table, rfl, by rw [hsize, ← hnodes, Array.length_toList, Graph.size], he, hfilled, hP⟩
  | cons n rest ih =>
    have hn : g.node? table.size = some n := by
      rw [hsize]
      exact Graph.node?_of_toList hnodes
    obtain ⟨results, t, hnode, hl, ht⟩ := exists_node hg hT he hfilled hP hn
    rw [hsize] at hnode
    have he' : ({ e with target := t } : Emission T).Holds table g.size := ⟨he.places, he.cached⟩
    have hstored := he'.store (Graph.lt_size_of_node? hn) results
    rw [hsize] at hstored
    have hlength : nodes.length + 1 = (nodes ++ [n]).length := by simp
    rw [List.length_cons, List.range'_succ, Action.forM_cons,
      Action.bind_of_ok ((Action.discard_eq_ok (u := ())).mpr ⟨results, hnode⟩), hlength]
    exact ih (by simpa using hnodes) (by simp [hsize]) hstored (hfilled.add hn hl) ht

theorem exists_body {t : T.State} {outputs : List Output} (hg : g.Ordered)
    (hT : Emits g functions P) (houtputs : ∀ o ∈ outputs, g.Produces o) (ht : P t) :
    ∃ operands e, body g functions outputs ⟨t, emptyCache T g⟩ = .ok operands e ∧
      operands.length = outputs.length ∧ P e.target := by
  have hsplit : g.nodes.toList = [] ++ g.nodes.toList := rfl
  have hempty : (#[] : Table T.Operand).size = ([] : List Node).length := rfl
  obtain ⟨e, table, hnodes, hsize, he, hfilled, hP⟩ :=
    exists_nodes hg hT hsplit hempty (.empty t g) (Table.filled_empty g) ht
  rw [Array.length_toList] at hnodes
  have hreads := hfilled.reads fun o ho => ⟨houtputs o ho, hsize ▸ (houtputs o ho).lt_size⟩
  refine ⟨outputs.filterMap table.value?, e, ?_, hreads.length_eq.symm, hP⟩
  rw [body, List.range_eq_range']
  exact Action.bind_eq_ok.mpr ⟨(), e, hnodes, inputs_eq he (Nat.le_of_eq hsize) hreads⟩

end Emission

theorem Definition.exists_compile {P : T.State → Prop} {d : Definition} {function : T.Function}
    {functions : FunctionTable T} {t t₁ : T.State} (hg : d.graph.Ordered)
    (houtputs : ∀ o ∈ d.outputs, d.graph.Produces o) (hT : Emission.Emits d.graph functions P)
    (hbegin : T.beginBody function t = .ok () t₁) (ht₁ : P t₁)
    (hfinish : ∀ operands t, operands.length = d.outputs.length → P t →
      ∃ t', T.finishBody function operands t = .ok () t') :
    ∃ cache t', d.compile function functions t = .ok cache t' := by
  obtain ⟨operands, e, hbody, hl, he⟩ := Emission.exists_body hg hT houtputs ht₁
  obtain ⟨t', ht'⟩ := hfinish operands e.target hl he
  refine ⟨e.cache, t', ?_⟩
  have hcache : Emission.withCache (Emission.emptyCache T d.graph)
      (Emission.body d.graph functions d.outputs) t₁ = .ok (operands, e.cache) e.target := by
    rw [Emission.withCache, hbody]
  exact Action.bind_eq_ok.mpr ⟨(), t₁, hbegin, Action.bind_eq_ok.mpr ⟨_, _, hcache,
    Action.bind_eq_ok.mpr ⟨(), t', ht', rfl⟩⟩⟩

/-! ### What outlasts the generation of code -/

/-- A property of the state outlasts each call that generates code for a function; `E` holds of what
these calls raise. -/
structure Target.Keeps (T : Target) (P : T.State → Prop) (E : CompileError → Prop)
    (function : T.Function) : Prop where
  beginBody : (T.beginBody function).Keeps P E
  argument : ∀ index type, (T.argument index type).Keeps P E
  literal : ∀ value, (T.literal value).Keeps P E
  primitive : ∀ p operands, (T.primitive p operands).Keeps P E
  call : ∀ callee operands, (T.call callee operands).Keeps P E
  finishBody : ∀ operands, (T.finishBody function operands).Keeps P E

theorem Target.Keeps.imp {P : T.State → Prop} {E E' : CompileError → Prop} {function : T.Function}
    (h : T.Keeps P E function) (hE : ∀ e, E e → E' e) : T.Keeps P E' function where
  beginBody := h.beginBody.imp hE
  argument index type := (h.argument index type).imp hE
  literal value := (h.literal value).imp hE
  primitive p operands := (h.primitive p operands).imp hE
  call callee operands := (h.call callee operands).imp hE
  finishBody operands := (h.finishBody operands).imp hE

/-- The failures of the walk through a graph itself, where only a callee without a function is amiss
with a call. -/
structure Emission.Raises (g : Graph) (functions : FunctionTable T) (E : CompileError → Prop) :
    Prop where
  index : ∀ index bound, E (.indexOutOfRange index bound)
  circular : E (.unsupported .circularBody)
  count : ∀ word given declared, E (.arity word (.resultCount given declared))
  callee : ∀ {id n callee}, g.node? id = some n → n.kind = .call callee →
    (functions[callee.word]?).join = none → E (.unsupported (.calleeNotCompiled callee.name))

theorem Graph.outputType_error {g : Graph} {o : Output} {e : CompileError}
    (h : g.outputType o = .error e) : ∃ index bound, e = .indexOutOfRange index bound := by
  unfold outputType at h
  split at h
  · simp only at h
    split at h
    · cases h
    · cases h
      exact ⟨_, _, rfl⟩
  · cases h
    exact ⟨_, _, rfl⟩

theorem Definition.signature_error {d : Definition} {e : CompileError} (h : d.signature = .error e) :
    ∃ index bound, e = .indexOutOfRange index bound := by
  rcases Except.bind_eq_error.mp h with h | ⟨inputs, -, h⟩
  · obtain ⟨id, -, he⟩ := Except.exists_of_mapM_eq_error h
    exact Graph.outputType_error he
  · rcases Except.bind_eq_error.mp h with h | ⟨outputs, -, h⟩
    · obtain ⟨o, -, he⟩ := Except.exists_of_mapM_eq_error h
      exact Graph.outputType_error he
    · cases h

namespace Emission
variable {P : T.State → Prop} {E : CompileError → Prop} {function : T.Function}

theorem keeps_emit (hT : T.Keeps P E function) (hE : Raises g functions E) {id : NodeId} {n : Node}
    (hn : g.node? id = some n) (operands : List T.Operand) :
    (emit g functions id n.kind operands).Keeps P E := by
  cases hk : n.kind with
  | literal value => exact .bind (hT.literal value) fun _ => .pure _
  | argument index type =>
    refine .bind (.ofExcept fun e h => ?_) fun type' => .bind (hT.argument index type') fun _ => .pure _
    obtain ⟨i, bound, rfl⟩ := Graph.outputType_error h
    exact hE.index i bound
  | primitive p =>
    unfold emit
    cases h : p.sources? with
    | none => simpa only [h] using hT.primitive p operands
    | some sources => simpa only [h] using .pure _
  | call callee =>
    unfold emit
    cases h : (functions[callee.word]?).join with
    | none => simpa only [h] using .throw (hE.callee hn hk h)
    | some f => simpa only [h] using hT.call f operands

theorem keeps_pick (hE : Raises g functions E) (operands : List T.Operand) (index : Nat) :
    (Action.ofExcept (pick operands index) : Action (Emission T) T.Operand).Keeps
      (fun e => P e.target) E := by
  refine .ofExcept fun e h => ?_
  unfold pick at h
  cases hi : operands[index]? with
  | none =>
    rw [hi] at h
    cases h
    exact hE.index _ _
  | some operand =>
    rw [hi] at h
    cases h

theorem keeps_nodeWithin (hT : T.Keeps P E function) (hE : Raises g functions E) (depth : Nat)
    (id : NodeId) :
    (nodeWithin g functions depth id).Keeps (fun e => P e.target) E := by
  induction depth generalizing id with
  | zero => exact .throw hE.circular
  | succ depth ih =>
    refine .bind .get fun e => ?_
    cases hc : e.cached? id with
    | some operands => simpa only [hc] using .pure operands
    | none =>
      cases hn : g.node? id with
      | none => simpa only [hc, hn] using .throw (hE.index _ _)
      | some n =>
        refine .bind (.mapM (fun (input : Output) => .bind (ih input.node) fun _ =>
          keeps_pick hE _ _) _) fun operands => ?_
        refine .bind (.within (keeps_emit hT hE hn operands) (fun _ hs => hs)
          fun _ _ _ ht => ht) fun results => ?_
        by_cases hl : results.length = n.outputArity
        · simpa only [hl, if_true] using .bind (.modify fun _ hs => hs) fun _ => .pure _
        · simpa only [hl, if_false] using .throw (hE.count _ _ _)

theorem keeps_body (hT : T.Keeps P E function) (hE : Raises g functions E) (outputs : List Output) :
    (body g functions outputs).Keeps (fun e => P e.target) E := by
  refine .bind (.forM (fun id => (keeps_nodeWithin hT hE _ id).discard) _) fun _ => ?_
  exact .mapM (fun o => .bind (keeps_nodeWithin hT hE _ o.node) fun _ =>
    keeps_pick hE _ _) outputs

end Emission

theorem Definition.keeps_compile {P : T.State → Prop} {E : CompileError → Prop}
    {function : T.Function} {d : Definition} {functions : FunctionTable T}
    (hT : T.Keeps P E function) (hE : Emission.Raises d.graph functions E) :
    (d.compile function functions).Keeps P E := by
  refine .bind hT.beginBody fun _ => .bind (fun t ht => ?_) fun _ => ?_
  · have hk := Emission.keeps_body hT hE d.outputs
    unfold Emission.withCache
    cases h : Emission.body d.graph functions d.outputs ⟨t, Emission.emptyCache T d.graph⟩ with
    | ok operands e => exact hk.ok ht h
    | error fault e => exact hk.error ht h
  · exact .bind (hT.finishBody _) fun _ => .pure _

end StackEffect
