import StackEffect.Proofs.Recording

/-!
Requests whose calls are put down with the nodes that they are made for. The record changes nothing of
what is requested (`erases_nodeWithin`), and the call for a node adds one item to it, unless the node is
a shuffle or calls a word that has no function (`answers_emit`).
-/
namespace StackEffect
variable {T : Target} {g : Graph} {functions : FunctionTable T}

/-- An emission, with the calls so far and the nodes that they were made for. -/
structure Traced (T : Target) where
  emission : Emission T
  calls : List (NodeId × Exchange T)

namespace Traced

def start (g : Graph) (t : T.State) : Traced T := ⟨⟨t, Emission.emptyCache T g⟩, []⟩

def cached? (s : Traced T) (id : NodeId) : Option (List T.Operand) := s.emission.cached? id

/-- The one call for a node. What a target that keeps a record is asked for is put down with the
node. -/
def emit (g : Graph) (functions : FunctionTable T) (id : NodeId) (kind : NodeKind)
    (operands : List T.Operand) : Action (Traced T) (List T.Operand) :=
  (Emission.emit (T := T.recorded) g functions id kind operands).within
    (fun s => (s.emission.target, []))
    fun t s => ⟨{ s.emission with target := t.1 }, s.calls ++ t.2.map (id, ·)⟩

def nodeWithin (g : Graph) (functions : FunctionTable T) :
    Nat → NodeId → Action (Traced T) (List T.Operand)
  | 0, _ => throw (.unsupported .circularBody)
  | depth + 1, id => do
    match (← get).cached? id with
    | some operands => return operands
    | none =>
      match g.node? id with
      | none => throw (.indexOutOfRange id g.size)
      | some node =>
        let operands ← node.inputs.mapM fun input => do
          Action.ofExcept (Emission.pick (← nodeWithin g functions depth input.node) input.index)
        let results ← emit g functions id node.kind operands
        if results.length = node.outputArity then
          modify fun s => { s with emission := s.emission.store id results }
          return results
        else
          throw (.arity node.label (.resultCount results.length node.outputArity))

def node (g : Graph) (functions : FunctionTable T) (id : NodeId) :
    Action (Traced T) (List T.Operand) :=
  nodeWithin g functions g.size id

def value (g : Graph) (functions : FunctionTable T) (o : Output) : Action (Traced T) T.Operand := do
  Action.ofExcept (Emission.pick (← node g functions o.node) o.index)

theorem erases_emit (g : Graph) (functions : FunctionTable T) (id : NodeId) (kind : NodeKind)
    (operands : List T.Operand) : (emit g functions id kind operands).Erases emission
      (Emission.onTarget (Emission.emit g functions id kind operands)) := by
  intro s
  have h := Emission.erases_emit g functions id kind operands (s.emission.target, [])
  unfold emit Emission.onTarget
  rw [Action.within_apply, Action.within_apply, h]
  cases Emission.emit (T := T.recorded) g functions id kind operands (s.emission.target, []) <;> rfl

theorem erases_nodeWithin (g : Graph) (functions : FunctionTable T) (depth : Nat) (id : NodeId) :
    (nodeWithin g functions depth id).Erases emission (Emission.nodeWithin g functions depth id) := by
  induction depth generalizing id with
  | zero => exact .throw _
  | succ depth ih =>
    intro s
    unfold nodeWithin Emission.nodeWithin
    rw [Action.bind_of_ok (Action.get_apply _), Action.bind_of_ok (Action.get_apply s)]
    have hcached : s.emission.cached? id = s.cached? id := rfl
    rw [hcached]
    cases s.cached? id with
    | some operands => rfl
    | none =>
      cases g.node? id with
      | none => rfl
      | some n =>
        have hinputs := Action.Erases.mapM (fun (input : Output) => (ih input.node).bind
          fun operands => .ofExcept (Emission.pick operands input.index)) n.inputs
        refine (hinputs.bind fun operands => ?_) s
        refine .bind (erases_emit g functions id n.kind operands) fun results => ?_
        by_cases hl : results.length = n.outputArity
        · simp only [hl, if_true]
          exact fun _ => rfl
        · simp only [hl, if_false]
          exact .throw _

theorem erases_value (g : Graph) (functions : FunctionTable T) (o : Output) :
    (value g functions o).Erases emission (Emission.value g functions o) :=
  (erases_nodeWithin g functions _ o.node).bind fun _ => .ofExcept _

end Traced

/-! ### One call -/

theorem Graph.Asks.isCoded {id : NodeId} {operands : List T.Operand} {kind : NodeKind}
    {query : Query T} (h : g.Asks functions id operands kind query) : kind.isCoded = true := by
  cases h with
  | @primitive p hp =>
    cases p with
    | shuffle z => cases hp
    | binary op type => rfl
    | cast c => rfl
  | literal value => rfl
  | argument index declared => rfl
  | call hf => rfl

namespace Traced
variable {id : NodeId} {n : Node} {new : List (NodeId × Exchange T)}
  {answer : Except CompileError (List T.Operand)}

/-- What the call for a node answers, and what it adds to the record. Neither a shuffle nor a call of a
word that has no function adds anything. -/
inductive Answers (id : NodeId) (n : Node) :
    Except CompileError (List T.Operand) → List (NodeId × Exchange T) → Prop
  | shuffle (operands : List T.Operand) : n.kind.isCoded = false → Answers id n (.ok operands) []
  | missing (fault : CompileError) : Answers id n (.error fault) []
  | asked (query : Query T) (answer : Except CompileError (List T.Operand)) :
      n.kind.isCoded = true → Answers id n answer [(id, ⟨query, answer⟩)]

theorem Answers.of_mem {x : NodeId × Exchange T} (h : Answers id n answer new) (hx : x ∈ new) :
    x.1 = id ∧ x.2.answer = answer ∧ n.kind.isCoded = true := by
  cases h with
  | shuffle operands hk => cases hx
  | missing fault => cases hx
  | asked query answer hk =>
    obtain rfl := List.mem_singleton.mp hx
    exact ⟨rfl, rfl, hk⟩

theorem answers_emit (functions : FunctionTable T) (hn : g.node? id = some n)
    (operands : List T.Operand) (s : Traced T) :
    ∃ new t, Answers id n ((emit g functions id n.kind operands).attempt s).1 new ∧
      ((emit g functions id n.kind operands).attempt s).2 =
        ⟨{ s.emission with target := t }, s.calls ++ new⟩ := by
  unfold emit Action.attempt
  simp only [Action.within_apply]
  cases h : Emission.emit (T := T.recorded) g functions id n.kind operands (s.emission.target, []) with
  | ok results r =>
    rcases Emission.emit_recorded hn h with ⟨z, hk, -, rfl⟩ | ⟨hk, query, t, -, rfl⟩
    · have hcoded : n.kind.isCoded = false := by rw [hk]; rfl
      exact ⟨[], s.emission.target, Answers.shuffle (T := T) results hcoded, rfl⟩
    · exact ⟨_, t, Answers.asked (T := T) query _ hk, rfl⟩
  | error fault r =>
    by_cases hcallee : ∀ callee, n.kind = .call callee → (functions[callee.word]?).join ≠ none
    · obtain ⟨query, t, hasks, rfl⟩ := Emission.emit_recorded_error hn hcallee h
      exact ⟨_, t, Answers.asked (T := T) query _ hasks.isCoded, rfl⟩
    · push Not at hcallee
      obtain ⟨callee, hk, hf⟩ := hcallee
      simp only [hk, Emission.emit, hf] at h
      cases h
      exact ⟨[], s.emission.target, Answers.missing (T := T) _, rfl⟩

end Traced
end StackEffect
