import StackEffect.Proofs.Graph.Typing
import StackEffect.Proofs.Primitive
import StackEffect.Proofs.Emission

/-!
What a target hears while code is generated. A target that keeps a record of its queries and answers
is no different otherwise (`erases_compile`). The record of a body has one query for each node that
is no shuffle, in the order of their creation, and its operands are what was answered for the origins
of the inputs; where the generation fails, it is the last answer that is amiss
(`Definition.recorded_compile`).
-/
namespace StackEffect

/-! ### A target that keeps a record -/

/-- What a target is asked for while the code of a function is generated. -/
inductive Query (T : Target)
  | beginBody (function : T.Function)
  | argument (index : Nat) (type : ValueType)
  | literal (value : Value)
  | primitive (p : Primitive) (operands : List T.Operand)
  | call (callee : T.Function) (operands : List T.Operand)
  | finishBody (function : T.Function) (operands : List T.Operand)

/-- A query, and the operands or the error that were answered. -/
structure Exchange (T : Target) where
  query : Query T
  answer : Except CompileError (List T.Operand)

/-- The query is put down with its answer, also when it fails. -/
def Query.noted {T : Target} {α : Type} (query : Query T) (operands : α → List T.Operand)
    (action : Action T.State α) : Action (T.State × List (Exchange T)) α := fun s =>
  match action s.1 with
  | .ok a t => .ok a (t, s.2 ++ [⟨query, .ok (operands a)⟩])
  | .error e t => .error e (t, s.2 ++ [⟨query, .error e⟩])

/-- The target with a record of the code that it is asked for, the oldest query first. -/
@[reducible] def Target.recorded (T : Target) : Target where
  State := T.State × List (Exchange T)
  Operand := T.Operand
  Function := T.Function
  declare name symbol signature :=
    (T.declare name symbol signature).within Prod.fst fun t s => (t, s.2)
  beginBody f := (Query.beginBody f).noted (fun _ => []) (T.beginBody f)
  argument index type := (Query.argument index type).noted (fun o => [o]) (T.argument index type)
  literal value := (Query.literal value).noted (fun o => [o]) (T.literal value)
  primitive p operands := (Query.primitive p operands).noted id (T.primitive p operands)
  call f operands := (Query.call f operands).noted id (T.call f operands)
  finishBody f operands :=
    (Query.finishBody f operands).noted (fun _ => []) (T.finishBody f operands)
  execute f values := (T.execute f values).within Prod.fst fun t s => (t, s.2)
  takeOutput s := ((T.takeOutput s.1).1, ((T.takeOutput s.1).2, s.2))

section Noted
variable {T : Target} {α : Type} {query : Query T} {operands : α → List T.Operand}
  {action : Action T.State α} {s s' : T.State × List (Exchange T)}

theorem Query.noted_eq_ok {a : α} : query.noted operands action s = .ok a s' ↔
    ∃ t, action s.1 = .ok a t ∧ s' = (t, s.2 ++ [⟨query, .ok (operands a)⟩]) := by
  unfold noted
  cases action s.1 with
  | ok b t =>
    constructor
    · intro h
      cases h
      exact ⟨t, rfl, rfl⟩
    · rintro ⟨t, h, rfl⟩
      cases h
      rfl
  | error e t => simp

theorem Query.noted_eq_error {e : CompileError} : query.noted operands action s = .error e s' ↔
    ∃ t, action s.1 = .error e t ∧ s' = (t, s.2 ++ [⟨query, .error e⟩]) := by
  unfold noted
  cases action s.1 with
  | ok b t => simp
  | error e t =>
    constructor
    · intro h
      cases h
      exact ⟨t, rfl, rfl⟩
    · rintro ⟨t, h, rfl⟩
      cases h
      rfl

end Noted

/-- What a target can become by requests in any order, whether or not they are met. -/
inductive Target.Driven (T : Target) (start : T.State) : T.State → Prop
  | start : Driven T start start
  | declare {t : T.State} (name symbol : String) (signature : Signature) : Driven T start t →
      Driven T start (Action.attempt (T.declare name symbol signature) t).2
  | beginBody {t : T.State} (function : T.Function) : Driven T start t →
      Driven T start (Action.attempt (T.beginBody function) t).2
  | argument {t : T.State} (index : Nat) (type : ValueType) : Driven T start t →
      Driven T start (Action.attempt (T.argument index type) t).2
  | literal {t : T.State} (value : Value) : Driven T start t →
      Driven T start (Action.attempt (T.literal value) t).2
  | primitive {t : T.State} (p : Primitive) (operands : List T.Operand) : Driven T start t →
      Driven T start (Action.attempt (T.primitive p operands) t).2
  | call {t : T.State} (callee : T.Function) (operands : List T.Operand) : Driven T start t →
      Driven T start (Action.attempt (T.call callee operands) t).2
  | finishBody {t : T.State} (function : T.Function) (operands : List T.Operand) :
      Driven T start t → Driven T start (Action.attempt (T.finishBody function operands) t).2
  | execute {t : T.State} (function : T.Function) (arguments : List Value) : Driven T start t →
      Driven T start (Action.attempt (T.execute function arguments) t).2
  | takeOutput {t : T.State} : Driven T start t → Driven T start (T.takeOutput t).2

abbrev Action.Maintains {σ α : Type} (P : σ → Prop) (x : Action σ α) : Prop :=
  x.Keeps P fun _ => True

/-- The property of the state outlasts each request, also one that is not met. -/
structure Target.Maintains (T : Target) (P : T.State → Prop) : Prop where
  declare : ∀ name symbol signature, (T.declare name symbol signature).Maintains P
  beginBody : ∀ function, (T.beginBody function).Maintains P
  argument : ∀ index type, (T.argument index type).Maintains P
  literal : ∀ value, (T.literal value).Maintains P
  primitive : ∀ p operands, (T.primitive p operands).Maintains P
  call : ∀ callee operands, (T.call callee operands).Maintains P
  finishBody : ∀ function operands, (T.finishBody function operands).Maintains P
  execute : ∀ function arguments, (T.execute function arguments).Maintains P
  takeOutput : ∀ t, P t → P (T.takeOutput t).2

theorem Target.Driven.holds {T : Target} {P : T.State → Prop} {start t : T.State}
    (h : T.Driven start t) (hP : T.Maintains P) (hstart : P start) : P t := by
  induction h with
  | start => exact hstart
  | declare name symbol signature _ ih => exact (hP.declare name symbol signature).attempt ih
  | beginBody function _ ih => exact (hP.beginBody function).attempt ih
  | argument index type _ ih => exact (hP.argument index type).attempt ih
  | literal value _ ih => exact (hP.literal value).attempt ih
  | primitive p operands _ ih => exact (hP.primitive p operands).attempt ih
  | call callee operands _ ih => exact (hP.call callee operands).attempt ih
  | finishBody function operands _ ih => exact (hP.finishBody function operands).attempt ih
  | execute function arguments _ ih => exact (hP.execute function arguments).attempt ih
  | takeOutput _ ih => exact hP.takeOutput _ ih

/-! ### The record changes nothing -/

/-- `y` does and answers what `x` does, on the part of the state that `π` leaves. -/
def Action.Erases {σ τ α : Type} (π : σ → τ) (x : Action σ α) (y : Action τ α) : Prop :=
  ∀ s, y (π s) = match x s with
    | .ok a s' => .ok a (π s')
    | .error e s' => .error e (π s')

namespace Action.Erases
variable {σ τ α β : Type} {π : σ → τ}

theorem pure (a : α) : Erases π (pure a : Action σ α) (pure a) := fun _ => rfl

theorem throw (e : CompileError) : Erases π (throw e : Action σ α) (throw e) := fun _ => rfl

theorem ofExcept (r : Except CompileError α) :
    Erases π (ofExcept r : Action σ α) (ofExcept r) := by
  cases r with
  | ok a => exact pure a
  | error e => exact throw e

theorem bind {x : Action σ α} {y : Action τ α} {f : α → Action σ β} {g : α → Action τ β}
    (hx : Erases π x y) (hf : ∀ a, Erases π (f a) (g a)) : Erases π (x >>= f) (y >>= g) := by
  intro s
  rw [bind_apply, bind_apply, hx s]
  cases x s with
  | ok a s' => exact hf a s'
  | error e s' => rfl

theorem mapM {f : α → Action σ β} {g : α → Action τ β} (hf : ∀ a, Erases π (f a) (g a))
    (as : List α) : Erases π (as.mapM f) (as.mapM g) := by
  induction as with
  | nil => exact pure []
  | cons a as ih =>
    rw [List.mapM_cons, List.mapM_cons]
    exact bind (hf a) fun b => bind ih fun bs => pure (b :: bs)

theorem forM {f : α → Action σ PUnit} {g : α → Action τ PUnit} (hf : ∀ a, Erases π (f a) (g a))
    (as : List α) : Erases π (as.forM f) (as.forM g) := by
  induction as with
  | nil => exact pure ()
  | cons a as ih =>
    rw [forM_cons, forM_cons]
    exact bind (hf a) fun _ => ih

theorem discard {x : Action σ α} {y : Action τ α} (hx : Erases π x y) :
    Erases π (discard x : Action σ Unit) (discard y) := by
  intro s
  rw [discard_apply, discard_apply, hx s]
  cases x s <;> rfl

end Action.Erases

section Erases
variable {T : Target}

theorem Query.erases_noted {α : Type} (query : Query T) (operands : α → List T.Operand)
    (action : Action T.State α) : (query.noted operands action).Erases Prod.fst action := by
  intro s
  unfold noted
  cases action s.1 <;> rfl

def Emission.forget (e : Emission T.recorded) : Emission T := ⟨e.target.1, e.cache⟩

namespace Emission

theorem erases_emit (g : Graph) (functions : FunctionTable T) (id : NodeId) (kind : NodeKind)
    (operands : List T.Operand) :
    (emit (T := T.recorded) g functions id kind operands).Erases Prod.fst
      (emit g functions id kind operands) := by
  cases kind with
  | literal value => exact .bind (Query.erases_noted _ _ _) fun _ => .pure _
  | argument index type =>
    exact .bind (.ofExcept _) fun type => .bind (Query.erases_noted _ _ _) fun _ => .pure _
  | primitive p =>
    unfold emit
    cases h : p.sources? with
    | none => simpa only [h] using Query.erases_noted _ _ _
    | some sources => simpa only [h] using .pure _
  | call callee =>
    unfold emit
    cases h : (functions[callee.word]?).join with
    | none => simpa only [h] using .throw _
    | some f => simpa only [h] using Query.erases_noted _ _ _

theorem erases_onTarget {α : Type} {x : Action T.recorded.State α} {y : Action T.State α}
    (h : x.Erases Prod.fst y) :
    (onTarget (T := T.recorded) x).Erases (forget (T := T)) (onTarget y) := by
  intro e
  have hx : y e.forget.target = _ := h e.target
  unfold onTarget
  rw [Action.within_apply, Action.within_apply, hx]
  cases x e.target <;> rfl

theorem erases_withCache {α : Type} {x : Action (Emission T.recorded) α} {y : Action (Emission T) α}
    (cache : OperandCache T) (h : x.Erases (forget (T := T)) y) :
    (withCache (T := T.recorded) cache x).Erases Prod.fst (withCache cache y) := by
  intro s
  have hx : y ⟨s.1, cache⟩ = _ := h ⟨s, cache⟩
  unfold withCache
  rw [hx]
  cases x ⟨s, cache⟩ <;> rfl

theorem erases_pick (operands : List T.Operand) (index : Nat) :
    (Action.ofExcept (pick (T := T.recorded) operands index)).Erases (forget (T := T))
      (Action.ofExcept (pick (T := T) operands index)) := by
  unfold pick
  cases operands[index]? with
  | none => exact .throw _
  | some operand => exact .pure operand

theorem erases_nodeWithin (g : Graph) (functions : FunctionTable T) (depth : Nat) (id : NodeId) :
    (nodeWithin (T := T.recorded) g functions depth id).Erases (forget (T := T))
      (nodeWithin g functions depth id) := by
  induction depth generalizing id with
  | zero => exact .throw _
  | succ depth ih =>
    intro e
    unfold nodeWithin
    rw [Action.bind_of_ok (Action.get_apply _), Action.bind_of_ok (Action.get_apply e)]
    have hcached : e.forget.cached? id = e.cached? id := rfl
    rw [hcached]
    cases e.cached? id with
    | some operands => rfl
    | none =>
      cases g.node? id with
      | none => rfl
      | some n =>
        have hinputs := Action.Erases.mapM (fun (input : Output) => (ih input.node).bind
          fun operands => erases_pick (T := T) operands input.index) n.inputs
        refine (hinputs.bind fun operands => ?_) e
        refine .bind (erases_onTarget (erases_emit g functions id n.kind operands)) fun results => ?_
        by_cases hl : results.length = n.outputArity
        · simp only [hl, if_true]
          exact fun _ => rfl
        · simp only [hl, if_false]
          exact .throw _

theorem erases_value (g : Graph) (functions : FunctionTable T) (o : Output) :
    (value (T := T.recorded) g functions o).Erases (forget (T := T)) (value g functions o) :=
  (erases_nodeWithin g functions _ o.node).bind fun operands => erases_pick (T := T) operands o.index

theorem erases_body (g : Graph) (functions : FunctionTable T) (outputs : List Output) :
    (body (T := T.recorded) g functions outputs).Erases (forget (T := T))
      (body g functions outputs) :=
  .bind (.forM (fun id => (erases_nodeWithin g functions _ id).discard) _) fun _ =>
    .mapM (erases_value g functions) outputs

end Emission

/-- A target that keeps a record generates the same code. -/
theorem Definition.erases_compile (d : Definition) (function : T.Function)
    (functions : FunctionTable T) : (d.compile (T := T.recorded) function functions).Erases Prod.fst
      (d.compile function functions) :=
  .bind (Query.erases_noted _ _ _) fun _ =>
    .bind (Emission.erases_withCache _ (Emission.erases_body d.graph functions d.outputs)) fun _ =>
      .bind (Query.erases_noted _ _ _) fun _ => .pure _

end Erases

/-! ### One query for each node that is no shuffle -/

/-- Those of the first `count` nodes that are no shuffles, in the order of their creation. -/
def Graph.coded (g : Graph) (count : Nat) : List NodeId :=
  (List.range count).filter fun id => (g.node? id).any fun n => n.kind.isCoded

theorem Graph.coded_succ {g : Graph} {count : Nat} {n : Node} (hn : g.node? count = some n) :
    g.coded (count + 1) = g.coded count ++ if n.kind.isCoded then [count] else [] := by
  rw [coded, List.range_succ, List.filter_append, ← coded, List.filter_singleton, hn]
  cases h : n.kind.isCoded <;> simp [h]

theorem Graph.lt_of_mem_coded {g : Graph} {count id : Nat} (h : id ∈ g.coded count) :
    id < count := List.mem_range.mp (List.mem_of_mem_filter h)

variable {T : Target} {g : Graph} {functions : FunctionTable T} {id : NodeId}
  {calls more : List (NodeId × Exchange T)}

/-- The query for a node that is no shuffle. An argument has the type that all its uses in the body
have come to. -/
inductive Graph.Asks (g : Graph) (functions : FunctionTable T) (id : NodeId)
    (operands : List T.Operand) : NodeKind → Query T → Prop
  | literal (value : Value) : Asks g functions id operands (.literal value) (.literal value)
  | argument (index : Nat) (declared : ValueType) : Asks g functions id operands
      (.argument index declared) (.argument index (g.argumentType id declared))
  | primitive {p : Primitive} : p.sources? = none →
      Asks g functions id operands (.primitive p) (.primitive p operands)
  | call {callee : Callee} {f : T.Function} : (functions[callee.word]?).join = some f →
      Asks g functions id operands (.call callee) (.call f operands)

/-- What was answered for an output, by a record of the queries for nodes. -/
def handle? (calls : List (NodeId × Exchange T)) (o : Output) : Option T.Operand :=
  ((calls.lookup o.node).bind (·.answer.toOption)).bind (·[o.index]?)

theorem handle?_append {o : Output} {operand : T.Operand} (h : handle? calls o = some operand)
    (more : List (NodeId × Exchange T)) : handle? (calls ++ more) o = some operand := by
  obtain ⟨operands, hx, ho⟩ := Option.bind_eq_some_iff.mp h
  obtain ⟨x, hx, ha⟩ := Option.bind_eq_some_iff.mp hx
  rw [handle?, List.lookup_append, hx, Option.some_or, Option.bind_some, ha, Option.bind_some, ho]

theorem handle?_append_self (hid : id ∉ calls.map Prod.fst) (query : Query T)
    (handles : List T.Operand) (index : Nat) :
    handle? (calls ++ [(id, ⟨query, .ok handles⟩)]) ⟨id, index⟩ = handles[index]? := by
  have hnone : calls.lookup id = none := by
    rw [List.lookup_eq_none_iff]
    rintro ⟨id', x⟩ hx
    have hne : id ≠ id' := fun h => hid (List.mem_map.mpr ⟨_, hx, h.symm⟩)
    simpa using hne
  rw [handle?, List.lookup_append, hnone, Option.none_or, List.lookup_cons_self]
  rfl

/-- The operands are, one by one, what was answered for the origins of the outputs. -/
def Handed (g : Graph) (calls : List (NodeId × Exchange T)) (outputs : List Output)
    (operands : List T.Operand) : Prop :=
  List.Forall₂ (fun o operand => handle? calls (g.origin o) = some operand) outputs operands

/-- The queries for the first `count` nodes of a graph: one for each node that is no shuffle, with
what was answered for the origins of its inputs, and each answered with as many operands as the node
has outputs. -/
structure Transcript (g : Graph) (functions : FunctionTable T) (count : Nat)
    (calls : List (NodeId × Exchange T)) : Prop where
  nodes : calls.map Prod.fst = g.coded count
  asked : ∀ {id x}, (id, x) ∈ calls → ∃ n operands handles, g.node? id = some n ∧
    Handed g calls n.inputs operands ∧ g.Asks functions id operands n.kind x.query ∧
    x.answer = .ok handles ∧ handles.length = n.outputArity

theorem Transcript.not_mem {count : Nat} (h : Transcript g functions count calls) :
    count ∉ calls.map Prod.fst := by
  rw [h.nodes]
  exact fun hmem => Nat.lt_irrefl _ (Graph.lt_of_mem_coded hmem)

theorem Transcript.shuffle {count : Nat} {n : Node} (h : Transcript g functions count calls)
    (hn : g.node? count = some n) (hk : n.kind.isCoded = false) :
    Transcript g functions (count + 1) calls where
  nodes := by simp [Graph.coded_succ hn, hk, h.nodes]
  asked := h.asked

theorem Transcript.coded {count : Nat} {n : Node} {query : Query T}
    {operands handles : List T.Operand} (h : Transcript g functions count calls)
    (hn : g.node? count = some n) (hk : n.kind.isCoded = true)
    (hinputs : Handed g calls n.inputs operands)
    (hasks : g.Asks functions count operands n.kind query) (hl : handles.length = n.outputArity) :
    Transcript g functions (count + 1) (calls ++ [(count, ⟨query, .ok handles⟩)]) where
  nodes := by simp [Graph.coded_succ hn, hk, h.nodes]
  asked {id x} hx := by
    rcases List.mem_append.mp hx with hx | hx
    · obtain ⟨n', operands', handles', hn', hinputs', hrest⟩ := h.asked hx
      exact ⟨n', operands', handles', hn', hinputs'.imp fun _ _ ho => handle?_append ho _, hrest⟩
    · cases List.mem_singleton.mp hx
      exact ⟨n, operands, handles, hn, hinputs.imp fun _ _ ho => handle?_append ho _, hasks, rfl, hl⟩

namespace Emission

/-- The call for a node leaves its query and answer in the record, unless the node is a shuffle. -/
theorem emit_recorded {n : Node} {operands results : List T.Operand}
    {s s' : T.State × List (Exchange T)} (hn : g.node? id = some n)
    (h : emit (T := T.recorded) g functions id n.kind operands s = .ok results s') :
    (∃ z, n.kind = .primitive (.shuffle z) ∧ results = z.apply operands ∧ s' = s) ∨
      n.kind.isCoded = true ∧ ∃ query t, g.Asks functions id operands n.kind query ∧
        s' = (t, s.2 ++ [⟨query, .ok results⟩]) := by
  obtain ⟨kind, inputs⟩ := n
  unfold emit at h
  cases kind with
  | literal value =>
    obtain ⟨operand, s₁, hs, h⟩ := Action.bind_eq_ok.mp h
    obtain ⟨t, -, rfl⟩ := Query.noted_eq_ok.mp hs
    cases h
    exact .inr ⟨rfl, _, t, .literal value, rfl⟩
  | argument index declared =>
    obtain ⟨type, s₁, hs₁, h⟩ := Action.bind_eq_ok.mp h
    obtain ⟨htype, rfl⟩ := Action.ofExcept_eq_ok.mp hs₁
    obtain rfl := (Graph.outputType_of_argument hn).mp htype
    obtain ⟨operand, s₂, hs₂, h⟩ := Action.bind_eq_ok.mp h
    obtain ⟨t, -, rfl⟩ := Query.noted_eq_ok.mp hs₂
    cases h
    exact .inr ⟨rfl, _, t, .argument index declared, rfl⟩
  | primitive p =>
    cases p with
    | shuffle z =>
      cases h
      exact .inl ⟨z, rfl, rfl, rfl⟩
    | binary op type =>
      obtain ⟨t, -, rfl⟩ := Query.noted_eq_ok.mp h
      exact .inr ⟨rfl, _, t, .primitive rfl, rfl⟩
    | cast c =>
      obtain ⟨t, -, rfl⟩ := Query.noted_eq_ok.mp h
      exact .inr ⟨rfl, _, t, .primitive rfl, rfl⟩
  | call callee =>
    cases hf : (functions[callee.word]?).join with
    | none =>
      simp only [hf] at h
      cases h
    | some f =>
      simp only [hf] at h
      obtain ⟨t, -, rfl⟩ := Query.noted_eq_ok.mp h
      exact .inr ⟨rfl, _, t, .call hf, rfl⟩

theorem emit_recorded_error {n : Node} {operands : List T.Operand} {e : CompileError}
    {s s' : T.State × List (Exchange T)} (hn : g.node? id = some n)
    (hcallee : ∀ callee, n.kind = .call callee → (functions[callee.word]?).join ≠ none)
    (h : emit (T := T.recorded) g functions id n.kind operands s = .error e s') :
    ∃ query t, g.Asks functions id operands n.kind query ∧
      s' = (t, s.2 ++ [⟨query, .error e⟩]) := by
  obtain ⟨kind, inputs⟩ := n
  unfold emit at h
  cases kind with
  | literal value =>
    rcases Action.bind_eq_error.mp h with hs | ⟨_, _, _, h⟩
    · obtain ⟨t, -, rfl⟩ := Query.noted_eq_error.mp hs
      exact ⟨_, t, .literal value, rfl⟩
    · cases h
  | argument index declared =>
    have htype := (Graph.outputType_of_argument hn).mpr rfl
    rcases Action.bind_eq_error.mp h with hs | ⟨type, s₁, hs, h⟩
    · cases htype.symm.trans (Action.ofExcept_eq_error.mp hs).1
    · obtain ⟨htype', rfl⟩ := Action.ofExcept_eq_ok.mp hs
      cases htype.symm.trans htype'
      rcases Action.bind_eq_error.mp h with hs | ⟨_, _, _, h⟩
      · obtain ⟨t, -, rfl⟩ := Query.noted_eq_error.mp hs
        exact ⟨_, t, .argument index declared, rfl⟩
      · cases h
  | primitive p =>
    cases p with
    | shuffle z => cases h
    | binary op type =>
      obtain ⟨t, -, rfl⟩ := Query.noted_eq_error.mp h
      exact ⟨_, t, .primitive rfl, rfl⟩
    | cast c =>
      obtain ⟨t, -, rfl⟩ := Query.noted_eq_error.mp h
      exact ⟨_, t, .primitive rfl, rfl⟩
  | call callee =>
    obtain ⟨f, hf⟩ := Option.ne_none_iff_exists'.mp (hcallee callee rfl)
    simp only [hf] at h
    obtain ⟨t, -, rfl⟩ := Query.noted_eq_error.mp h
    exact ⟨_, t, .call hf, rfl⟩

/-- Code that has been generated node by node leaves a transcript, and what an output is represented
by was answered for its origin. -/
theorem transcript_of_generated {start s : T.recorded.State} {nodes rest : List Node}
    {table : Table T.recorded.Operand} (hg : g.Ordered) (hnodes : g.nodes.toList = nodes ++ rest)
    (h : Generated (T := T.recorded) g functions start nodes table s) :
    ∃ calls, s.2 = start.2 ++ calls.map Prod.snd ∧ Transcript g functions nodes.length calls ∧
      ∀ o operand, table.value? o = some operand → handle? calls (g.origin o) = some operand := by
  induction h generalizing rest with
  | none =>
    refine ⟨[], (List.append_nil _).symm, ⟨rfl, fun h => nomatch h⟩, fun o operand ho => ?_⟩
    exact absurd (Table.lt_size_of_value? ho) (Nat.not_lt_zero _)
  | @node nodes table s n operands results s' hgen hreads hemit hl ih =>
    obtain ⟨calls, hlog, htranscript, hvalues⟩ := ih (by simpa using hnodes)
    have hn : g.node? nodes.length = some n := Graph.node?_of_toList (by simpa using hnodes)
    have hinputs : Handed g calls n.inputs operands := hreads.imp hvalues
    rw [List.length_append, List.length_singleton]
    rcases emit_recorded hn hemit with ⟨z, hk, rfl, rfl⟩ | ⟨hk, query, t, hasks, rfl⟩
    · refine ⟨calls, hlog, htranscript.shuffle hn (by rw [hk]; rfl), fun o operand ho => ?_⟩
      rcases Table.value?_add_eq_some.mp ho with ho | ⟨index, rfl, hi⟩
      · exact hvalues o operand ho
      · -- An output of the shuffle has the origin of the input that it repeats.
        have harity : operands.length = z.arity := by
          rw [← hreads.length_eq, hg.length hn, Node.inputArity, hk]
          rfl
        have hpicked := Shuffle.reads_apply (α := T.Operand) harity
        obtain ⟨place, hplace, hoperand⟩ := Pointwise.left_of_right hpicked hi
        obtain ⟨input, hinput, hhandle⟩ := Pointwise.left_of_right hinputs hoperand
        have hrepeated : g.repeated? ⟨table.size, index⟩ = some input := by
          rw [hgen.size, Graph.repeated?_of_node? hn, Graph.repeated?_eq_bind, hk]
          simp [Graph.repeatedPlace?, Primitive.sources?, hplace, hinput]
        rw [hg.origin_of_repeated hrepeated, hhandle]
    · refine ⟨calls ++ [(nodes.length, ⟨query, .ok results⟩)], by simp [hlog],
        htranscript.coded hn hk hinputs hasks hl, fun o operand ho => ?_⟩
      rcases Table.value?_add_eq_some.mp ho with ho | ⟨index, rfl, hi⟩
      · exact handle?_append (hvalues o operand ho) _
      · have hsource : g.repeated? ⟨table.size, index⟩ = none := by
          rw [hgen.size, Graph.repeated?_of_node? hn]
          obtain ⟨kind, inputs⟩ := n
          cases hasks <;> simp_all [Node.repeated?]
        rw [Graph.origin_of_source hsource, hgen.size, handle?_append_self htranscript.not_mem, hi]

end Emission

/-- The record of the code of a definition: the queries for its nodes, between the begin of the body
and its end, which gets what was answered for the origins of the outputs. -/
def Definition.Recorded (d : Definition) (function : T.Function) (functions : FunctionTable T)
    (log : List (Exchange T)) : Prop :=
  ∃ calls operands, Transcript d.graph functions d.graph.size calls ∧
    Handed d.graph calls d.outputs operands ∧
    log = ⟨.beginBody function, .ok []⟩ ::
      (calls.map Prod.snd ++ [⟨.finishBody function operands, .ok []⟩])

/-! ### Where the generation fails -/

namespace Emission
variable {T : Target} {functions : FunctionTable T} {e e' : Emission T} {table : Table T.Operand}
  {fault : CompileError}

/-- The last call for a node has failed, or has answered another number of operands than the node has
outputs. -/
def Refused (g : Graph) (functions : FunctionTable T) (fault : CompileError) (t' : T.State) : Prop :=
  ∃ id n operands t, g.node? id = some n ∧ operands.length = n.inputs.length ∧
    (emit g functions id n.kind operands t = .error fault t' ∨
      ∃ results, emit g functions id n.kind operands t = .ok results t' ∧
        results.length ≠ n.outputArity ∧
        fault = .arity n.label (.resultCount results.length n.outputArity))

theorem refused_node {n : Node} (hg : g.Ordered) (he : e.Holds table g.size)
    (hfilled : table.Filled g) (hn : g.node? table.size = some n)
    (h : node g functions table.size e = .error fault e') : Refused g functions fault e'.target := by
  obtain ⟨operands, hreads, heq⟩ := node_eq functions hg he hfilled hn
  have hcount : operands.length = n.inputs.length := hreads.length_eq.symm
  rw [heq] at h
  cases hemit : emit g functions table.size n.kind operands e.target with
  | ok results t =>
    simp only [hemit] at h
    split_ifs at h with hl
    cases h
    exact ⟨_, n, operands, e.target, hn, hcount, .inr ⟨results, hemit, hl, rfl⟩⟩
  | error fault t =>
    simp only [hemit] at h
    cases h
    exact ⟨_, n, operands, e.target, hn, hcount, .inl hemit⟩

theorem refused_nodes {nodes rest : List Node} (hg : g.Ordered)
    (hnodes : g.nodes.toList = nodes ++ rest) (hsize : table.size = nodes.length)
    (he : e.Holds table g.size) (hfilled : table.Filled g)
    (h : ((List.range' nodes.length rest.length).forM fun id =>
      discard (node g functions id)) e = .error fault e') : Refused g functions fault e'.target := by
  induction rest generalizing nodes table e with
  | nil => cases h
  | cons n rest ih =>
    have hn : g.node? table.size = some n := by
      rw [hsize]
      exact Graph.node?_of_toList hnodes
    rw [List.length_cons, List.range'_succ, Action.forM_cons, ← hsize] at h
    rcases Action.bind_eq_error.mp h with hnode | ⟨_, e₁, hnode, h⟩
    · exact refused_node hg he hfilled hn (Action.discard_eq_error.mp hnode)
    · obtain ⟨results, hnode⟩ := Action.discard_eq_ok.mp hnode
      obtain ⟨operands, t, -, -, hl, rfl⟩ := node_eq_ok hg he hfilled hn hnode
      have he' : ({ e with target := t } : Emission T).Holds table g.size := ⟨he.places, he.cached⟩
      have hlength : table.size + 1 = (nodes ++ [n]).length := by simp [hsize]
      rw [hlength] at h
      exact ih (by simpa using hnodes) (by simp [hsize])
        (he'.store (Graph.lt_size_of_node? hn) results) (hfilled.add hn hl) h

theorem refused_body {t : T.State} {outputs : List Output} (hg : g.Ordered)
    (houtputs : ∀ o ∈ outputs, g.Produces o)
    (h : body g functions outputs ⟨t, emptyCache T g⟩ = .error fault e') :
    Refused g functions fault e'.target := by
  have hsize : g.size = g.nodes.toList.length := Array.length_toList.symm
  have hsplit : g.nodes.toList = [] ++ g.nodes.toList := rfl
  have hempty : (#[] : Table T.Operand).size = ([] : List Node).length := rfl
  rcases Action.bind_eq_error.mp h with h | ⟨_, e₁, hnodes, h⟩
  · rw [List.range_eq_range', hsize] at h
    exact refused_nodes hg hsplit hempty (.empty t g) (Table.filled_empty g) h
  · rw [List.range_eq_range', hsize] at hnodes
    obtain ⟨table, hgen, he⟩ := generated_nodes hg hsplit (.empty t g) .none hnodes
    have hfull : table.size = g.size := hgen.size.trans Array.length_toList
    have hreads := (hgen.filled (List.append_nil _).symm).reads fun o ho =>
      ⟨houtputs o ho, hfull ▸ (houtputs o ho).lt_size⟩
    cases h.symm.trans (inputs_eq he (Nat.le_of_eq hfull) hreads)

end Emission

/-- The last answer in the record is an error, or for the node that it was asked for not as many
operands as the node has outputs. -/
def Graph.Failed (g : Graph) (functions : FunctionTable T) (fault : CompileError)
    (log : List (Exchange T)) : Prop :=
  ∃ x, log.getLast? = some x ∧ (x.answer = .error fault ∨
    ∃ id n operands handles, g.node? id = some n ∧
      g.Asks functions id operands n.kind x.query ∧ x.answer = .ok handles ∧
      handles.length ≠ n.outputArity ∧
      fault = .arity n.label (.resultCount handles.length n.outputArity))

theorem Graph.failed_of_refused {functions : FunctionTable T} {fault : CompileError}
    {s : T.recorded.State} (hg : g.Ordered)
    (hcallees : ∀ {id n callee}, g.node? id = some n → n.kind = .call callee →
      (functions[callee.word]?).join ≠ none)
    (h : Emission.Refused (T := T.recorded) g functions fault s) :
    g.Failed functions fault s.2 := by
  obtain ⟨id, n, operands, s₀, hn, hl, hemit | ⟨results, hemit, hne, rfl⟩⟩ := h
  · obtain ⟨query, t, -, rfl⟩ := Emission.emit_recorded_error hn (fun _ => hcallees hn) hemit
    exact ⟨_, List.getLast?_concat, .inl rfl⟩
  · rcases Emission.emit_recorded hn hemit with ⟨z, hk, rfl, rfl⟩ | ⟨-, query, t, hasks, rfl⟩
    · -- A shuffle has as many results as outputs, whatever its operands.
      have harity : operands.length = z.arity := by
        rw [hl, hg.length hn, Node.inputArity, hk]
        rfl
      have hcount := (Shuffle.reads_apply (α := T.Operand) harity).length_eq
      refine absurd (hcount.symm.trans ?_) hne
      rw [Node.outputArity, hk]
      rfl
    · exact ⟨_, List.getLast?_concat, .inr ⟨id, n, operands, results, hn, hasks, rfl, hne, rfl⟩⟩

/-- The code of a definition whose callees have functions: either the record says all of it, or what
the target has answered last is amiss. -/
theorem Definition.recorded_compile {d : Definition} {functions : FunctionTable T}
    (hg : d.graph.Ordered) (houtputs : ∀ o ∈ d.outputs, d.graph.Produces o)
    (hcallees : ∀ {id n callee}, d.graph.node? id = some n → n.kind = .call callee →
      (functions[callee.word]?).join ≠ none)
    (function : T.Function) (s : T.recorded.State) :
    match d.compile (T := T.recorded) function functions s with
    | .ok _ s' => ∃ log, s'.2 = s.2 ++ log ∧ d.Recorded function functions log
    | .error fault s' => d.graph.Failed functions fault s'.2 := by
  cases h : d.compile (T := T.recorded) function functions s with
  | ok cache s' =>
    obtain ⟨s₁, s₂, table, operands, hbegin, hgen, hreads, hfinish⟩ := generated_compile hg houtputs h
    obtain ⟨t₁, -, rfl⟩ := Query.noted_eq_ok.mp hbegin
    obtain ⟨t₂, -, rfl⟩ := Query.noted_eq_ok.mp hfinish
    obtain ⟨calls, hlog, htranscript, hhandles⟩ :=
      Emission.transcript_of_generated hg (List.append_nil _).symm hgen
    rw [Array.length_toList] at htranscript
    refine ⟨_, ?_, calls, operands, htranscript, hreads.imp hhandles, rfl⟩
    simp [hlog]
  | error fault s' =>
    rcases Action.bind_eq_error.mp h with hbegin | ⟨_, s₁, -, h⟩
    · obtain ⟨t, -, rfl⟩ := Query.noted_eq_error.mp hbegin
      exact ⟨_, List.getLast?_concat, .inl rfl⟩
    rcases Action.bind_eq_error.mp h with hbody | ⟨outputs, s₂, -, h⟩
    · unfold Emission.withCache at hbody
      split at hbody
      · cases hbody
      · rename_i hb
        cases hbody
        exact Graph.failed_of_refused hg hcallees (Emission.refused_body hg houtputs hb)
    rcases Action.bind_eq_error.mp h with hfinish | ⟨_, s₃, -, h⟩
    · obtain ⟨t, -, rfl⟩ := Query.noted_eq_error.mp hfinish
      exact ⟨_, List.getLast?_concat, .inl rfl⟩
    · cases h

end StackEffect
