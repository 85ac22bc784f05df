import StackEffect.Proofs.Graph.Table
import StackEffect.Proofs.Primitive
import StackEffect.Proofs.Sequencing

/-!
What a graph computes. Its nodes are evaluated in the order of their creation, so that every node
finds the values of its inputs (`evaluate_induction`). In a sound graph each node has as many values
as it has outputs (`faithful_evaluate`), of the types of the outputs (`typed_evaluate`).
-/
namespace StackEffect

/-- How code that has been compiled may fail: it divides by zero, calls a native that is not there or
not for these arguments, or nests calls too deeply. -/
def Failure : CompileError → Prop
  | .runtime (.divisionByZero _) | .runtime (.unresolved _) | .runtime (.badArguments ..)
  | .runtime .callDepth => True
  | _ => False

/-- The values of the outputs of each node that has been evaluated. -/
abbrev Valuation := Table Value

/-! ### Evaluating nodes -/

/-- What the words that a body calls do. -/
abbrev Calls := Callee → List Value → Action String (List Value)

/-- The values of the outputs of a node, given the arguments of the body and the values of the
inputs of the node. -/
def NodeKind.eval (calls : Calls) (arguments operands : List Value) :
    NodeKind → Action String (List Value)
  | literal value => pure [value]
  | argument index _ => pure arguments[index]?.toList
  | primitive p => Action.ofExcept (p.eval operands)
  | call callee => calls callee operands

def Node.eval (calls : Calls) (arguments : List Value) (v : Valuation) (n : Node) :
    Action String (List Value) :=
  n.kind.eval calls arguments (n.inputs.filterMap v.value?)

/-- Evaluates nodes one after the other; each may take values of those before it. -/
def evaluate (calls : Calls) (arguments : List Value) (nodes : List Node) (v : Valuation) :
    Action String Valuation :=
  nodes.foldlM (fun v n => v.add <$> n.eval calls arguments v) v

section Evaluate
variable {calls : Calls} {arguments : List Value}

theorem evaluate_cons (n : Node) (nodes : List Node) (v : Valuation) :
    evaluate calls arguments (n :: nodes) v =
      (v.add <$> n.eval calls arguments v) >>= evaluate calls arguments nodes := by
  simp [evaluate]

theorem evaluate_append (nodes more : List Node) (v : Valuation) :
    evaluate calls arguments (nodes ++ more) v =
      evaluate calls arguments nodes v >>= evaluate calls arguments more := by
  simp [evaluate, List.foldlM_append]
  rfl

theorem evaluate_concat (nodes : List Node) (n : Node) (v : Valuation) :
    evaluate calls arguments (nodes ++ [n]) v =
      evaluate calls arguments nodes v >>= fun v => v.add <$> n.eval calls arguments v := by
  rw [evaluate_append]
  congr 1
  funext v
  exact bind_pure _

theorem NodeKind.eval_of_ne_argument {kind : NodeKind} (h : ∀ index type, kind ≠ .argument index type)
    (values values' operands : List Value) :
    kind.eval calls values operands = kind.eval calls values' operands := by
  cases kind with
  | argument index type => exact absurd rfl (h index type)
  | literal value => rfl
  | primitive p => rfl
  | call callee => rfl

/-- What holds at the start and is kept by every node of a graph holds in the end. -/
theorem evaluate_induction {g : Graph} {P : Valuation → Prop} {E : CompileError → Prop}
    (step : ∀ {v : Valuation} {n}, g.node? v.size = some n → P v →
      (n.eval calls arguments v).Yields (fun values => P (v.add values)) E)
    {before nodes after : List Node} {v : Valuation} (hg : g.nodes.toList = before ++ nodes ++ after)
    (hv : v.size = before.length) (h : P v) :
    (evaluate calls arguments nodes v).Yields
      (fun v' => v'.size = before.length + nodes.length ∧ P v') E := by
  induction nodes generalizing before v with
  | nil => exact .pure ⟨hv, h⟩
  | cons n nodes ih =>
    have hn : g.node? v.size = some n := by
      rw [hv]
      exact Graph.node?_of_toList (by simpa using hg)
    have hstep : (n.eval calls arguments v).Yields
        (fun values => (v.add values).size = (before ++ [n]).length ∧ P (v.add values)) E :=
      (step hn h).imp (fun values hp => ⟨by simp [hv], hp⟩) fun _ he => he
    have hmap : (v.add <$> n.eval calls arguments v).Yields
        (fun v' => v'.size = (before ++ [n]).length ∧ P v') E := .map hstep
    rw [evaluate_cons]
    refine .bind hmap fun v' ⟨hv', hp⟩ => ?_
    refine (ih (by simpa using hg) hv' hp).imp (fun v'' ⟨hs, hp'⟩ => ⟨?_, hp'⟩) fun _ he => he
    simp only [hs, List.length_append, List.length_cons, List.length_nil]
    omega

/-- Only the arguments and the callees that the nodes name matter. -/
theorem evaluate_congr {calls' : Calls} {arguments' : List Value} {nodes : List Node}
    (hargs : ∀ n ∈ nodes, ∀ index type, n.kind = .argument index type →
      arguments[index]? = arguments'[index]?)
    (hcalls : ∀ n ∈ nodes, ∀ callee, n.kind = .call callee → calls callee = calls' callee)
    (v : Valuation) : evaluate calls arguments nodes v = evaluate calls' arguments' nodes v := by
  induction nodes generalizing v with
  | nil => rfl
  | cons n nodes ih =>
    have hn : n.eval calls arguments v = n.eval calls' arguments' v := by
      have ha := hargs n List.mem_cons_self
      have hc := hcalls n List.mem_cons_self
      obtain ⟨kind, inputs⟩ := n
      cases kind with
      | literal value => rfl
      | argument index type => simp only [Node.eval, NodeKind.eval, ha index type rfl]
      | primitive p => rfl
      | call callee => simp only [Node.eval, NodeKind.eval, hc callee rfl]
    have hrest : evaluate calls arguments nodes = evaluate calls' arguments' nodes := by
      funext v'
      exact ih (fun n' hn' => hargs n' (List.mem_cons_of_mem n hn'))
        (fun n' hn' => hcalls n' (List.mem_cons_of_mem n hn')) v'
    rw [evaluate_cons, evaluate_cons, hn, hrest]

def Graph.evaluate (g : Graph) (calls : Calls) (arguments : List Value) :
    Action String Valuation :=
  StackEffect.evaluate calls arguments g.nodes.toList #[]

theorem Graph.evaluate_add (g : Graph) (kind : NodeKind) (inputs : List Output) :
    (g.add kind inputs).evaluate calls arguments = (do
      let v ← g.evaluate calls arguments
      v.add <$> Node.eval calls arguments v ⟨kind, inputs⟩) := by
  have hnodes : (g.add kind inputs).nodes.toList = g.nodes.toList ++ [⟨kind, inputs⟩] :=
    Array.toList_push
  rw [evaluate, hnodes, evaluate_concat]
  rfl

theorem Graph.Grows.evaluate_error {g later : Graph} (h : g.Grows later) {before out : String}
    {e : CompileError}
    (he : g.evaluate calls arguments before = .error e out) :
    later.evaluate calls arguments before = .error e out := by
  obtain ⟨after, hafter⟩ := h.exists_append
  rw [Graph.evaluate, hafter, evaluate_append]
  exact Action.bind_of_error he _

end Evaluate

/-! ### How many values there are, and which are equal -/

/-- Calls answer as many values as the callee declares. -/
def Calls.Counted (calls : Calls) : Prop := ∀ callee arguments,
  (calls callee arguments).Yields (·.length = callee.signature.outputArity) fun _ => True

theorem NodeKind.eval_counted {calls : Calls} {kind : NodeKind} {arguments operands : List Value}
    (hcalls : calls.Counted)
    (hargs : ∀ {index type}, kind = .argument index type → index < arguments.length) :
    (kind.eval calls arguments operands).Yields
      (fun values => values.length = kind.outputArity ∧
        ∀ {index place : Nat}, Graph.repeatedPlace? kind index = some place →
          values[index]? = operands[place]?) fun _ => True := by
  cases kind with
  | literal value => exact .pure ⟨rfl, fun hp => nomatch hp⟩
  | argument index type =>
    refine .pure ⟨?_, fun hp => nomatch hp⟩
    rw [List.getElem?_eq_getElem (hargs rfl)]
    rfl
  | primitive p =>
    refine .ofExcept ?_
    cases h : p.eval operands with
    | ok values => exact Primitive.eval_counted h
    | error e => trivial
  | call callee =>
    exact (hcalls callee operands).imp (fun values h => ⟨h, fun hp => nomatch hp⟩) fun _ h => h

/-- Each node has as many values as outputs, and shuffles have the values of what they repeat. -/
structure Table.Faithful (g : Graph) (v : Valuation) : Prop where
  count : v.Filled g
  repeats : ∀ {o s}, o.node < v.size → g.repeated? o = some s → v.value? o = v.value? s

/-- There is an argument for each argument node. -/
def Graph.Supplied (g : Graph) (arguments : List Value) : Prop :=
  ∀ {id index type inputs}, g.node? id = some ⟨.argument index type, inputs⟩ →
    index < arguments.length

namespace Table.Faithful
variable {g : Graph} {v : Valuation}

theorem empty (g : Graph) : Faithful g #[] := ⟨filled_empty g, by simp⟩

theorem produces (hv : v.Faithful g) {o : Output} {x : Value} (h : v.value? o = some x) :
    g.Produces o := by
  obtain ⟨values, hs, hx⟩ := Option.bind_eq_some_iff.mp h
  have hi := (List.getElem?_eq_some_iff.mp hx).1
  rw [hv.count _ _ hs] at hi
  exact hi

/-- An output has the value of its origin. -/
theorem value?_origin (hv : v.Faithful g) (hg : g.Ordered) {o : Output} (ho : o.node < v.size) :
    v.value? o = v.value? (g.origin o) := by
  induction o using hg.output_induction with
  | source o h => rw [Graph.origin_of_source h]
  | shuffle o s h ih =>
    rw [hv.repeats ho h, hg.origin_of_repeated h]
    exact ih (Nat.lt_trans (hg.repeated_lt h) ho)

theorem add (hv : v.Faithful g) (hg : g.Ordered) {n : Node} {values : List Value}
    (hn : g.node? v.size = some n) (hl : values.length = n.outputArity)
    (hr : ∀ {index place : Nat}, Graph.repeatedPlace? n.kind index = some place →
      values[index]? = (n.inputs.filterMap v.value?)[place]?) : (v.add values).Faithful g := by
  constructor
  · exact hv.count.add hn hl
  · intro o s ho h
    rw [size_add] at ho
    rcases Nat.lt_succ_iff_lt_or_eq.mp ho with hlt | heq
    · have hs := Nat.lt_trans (hg.repeated_lt h) hlt
      rw [value?_add_of_lt values hlt, value?_add_of_lt values hs, hv.repeats hlt h]
    · have hs : s.node < v.size := heq ▸ hg.repeated_lt h
      rw [← heq] at hn
      rw [Graph.repeated?_of_node? hn, Graph.repeated?_eq_bind] at h
      obtain ⟨place, hplace, hinput⟩ := Option.bind_eq_some_iff.mp h
      rw [heq] at hn
      obtain ⟨x, hx, hsx⟩ := Pointwise.right_of_left (hv.count.reads_inputs hg hn) hinput
      have ho : (v.add values).value? o = values[o.index]? := by
        rw [← value?_add_size v values, ← heq]
      rw [ho, hr hplace, hx, value?_add_of_lt values hs, hsx]

end Table.Faithful

section Faithful
variable {g : Graph} {calls : Calls} {arguments : List Value}

theorem faithful_eval {v : Valuation} {n : Node} (hg : g.Ordered) (hcalls : calls.Counted)
    (hargs : g.Supplied arguments) (hn : g.node? v.size = some n) (hv : v.Faithful g) :
    (n.eval calls arguments v).Yields (fun values => (v.add values).Faithful g) fun _ => True := by
  refine (NodeKind.eval_counted hcalls fun {index type} hk => ?_).imp
    (fun values ⟨hl, hr⟩ => hv.add hg hn hl hr) fun _ h => h
  obtain ⟨kind, inputs⟩ := n
  cases hk
  exact hargs hn

theorem faithful_evaluate {nodes after : List Node} (hg : g.Ordered) (hcalls : calls.Counted)
    (hargs : g.Supplied arguments) (hnodes : g.nodes.toList = nodes ++ after) :
    (evaluate calls arguments nodes #[]).Yields
      (fun v => v.size = nodes.length ∧ v.Faithful g) fun _ => True := by
  have hsize : (#[] : Valuation).size = ([] : List Node).length := rfl
  have h := evaluate_induction (fun hn hv => faithful_eval hg hcalls hargs hn hv) hnodes hsize
    (Table.Faithful.empty g)
  simpa using h

/-- The arguments of the body are the values of the argument nodes. -/
def Table.Supplies (g : Graph) (arguments : List Value) (v : Valuation) : Prop :=
  ∀ {id index type inputs}, g.node? id = some ⟨.argument index type, inputs⟩ → id < v.size →
    v.value? ⟨id, 0⟩ = arguments[index]?

theorem supplies_eval {v : Valuation} {n : Node} (hn : g.node? v.size = some n)
    (hv : v.Supplies g arguments) :
    (n.eval calls arguments v).Yields (fun values => (v.add values).Supplies g arguments)
      fun _ => True := by
  have hold : ∀ {values : List Value} {id index type inputs},
      g.node? id = some ⟨.argument index type, inputs⟩ → id < v.size →
      (v.add values).value? ⟨id, 0⟩ = arguments[index]? := by
    intro values id index type inputs hid hlt
    rw [Table.value?_add_of_lt values hlt, hv hid hlt]
  by_cases hk : ∃ index type inputs, n = ⟨.argument index type, inputs⟩
  · obtain ⟨index, type, inputs, rfl⟩ := hk
    refine .pure fun {id index' type' inputs'} hid hlt => ?_
    rw [Table.size_add] at hlt
    rcases Nat.lt_succ_iff_lt_or_eq.mp hlt with hlt | rfl
    · exact hold hid hlt
    · cases hn.symm.trans hid
      rw [Table.value?_add_size]
      cases arguments[index]? <;> rfl
  · refine (Action.Yields.trivial _).imp (fun values _ {id index' type' inputs'} hid hlt => ?_)
      fun _ h => h
    rw [Table.size_add] at hlt
    rcases Nat.lt_succ_iff_lt_or_eq.mp hlt with hlt | rfl
    · exact hold hid hlt
    · exact absurd ⟨_, _, _, Option.some.inj (hn.symm.trans hid)⟩ hk

theorem supplies_evaluate {nodes after : List Node} (hnodes : g.nodes.toList = nodes ++ after) :
    (evaluate calls arguments nodes #[]).Yields
      (fun v => v.size = nodes.length ∧ v.Supplies g arguments) fun _ => True := by
  have hsize : (#[] : Valuation).size = ([] : List Node).length := rfl
  have hstart : Table.Supplies g arguments #[] := fun _ hlt => absurd hlt (Nat.not_lt_zero _)
  have h := evaluate_induction (fun hn hv => @supplies_eval g calls arguments _ _ hn hv) hnodes
    hsize hstart
  simpa using h

end Faithful

/-! ### Types of values -/

/-- Calls within a vocabulary take and give values of the types that the callee declares. -/
def Calls.Sound (V : Vocabulary) (calls : Calls) : Prop := ∀ {callee arguments}, V callee →
  Fits callee.signature.inputs arguments →
  (calls callee arguments).Yields (Fits callee.signature.outputs) Failure

/-- There is an argument of the right type for each argument node. -/
def Graph.Admits (g : Graph) (arguments : List Value) : Prop :=
  ∀ {id index declared inputs}, g.node? id = some ⟨.argument index declared, inputs⟩ →
    ∃ x, arguments[index]? = some x ∧
      ∀ type, g.outputType ⟨id, 0⟩ = .ok type → ValueType.compatible type x.type = true

theorem Graph.Admits.supplied {g : Graph} {arguments : List Value} (h : g.Admits arguments) :
    g.Supplied arguments := by
  intro id index type inputs hn
  obtain ⟨x, hx, -⟩ := h hn
  exact (List.getElem?_eq_some_iff.mp hx).1

theorem Graph.Admits.append {g : Graph} {arguments : List Value} (h : g.Admits arguments)
    (rest : List Value) : g.Admits (arguments ++ rest) := by
  intro id index declared inputs hn
  obtain ⟨x, hx, hc⟩ := h hn
  refine ⟨x, ?_, hc⟩
  rw [List.getElem?_append_left (List.getElem?_eq_some_iff.mp hx).1, hx]

def Table.Typed (g : Graph) (v : Valuation) : Prop := ∀ {o x type}, v.value? o = some x →
  g.outputType o = .ok type → ValueType.compatible type x.type = true

section Typed
variable {V : Vocabulary} {g : Graph} {calls : Calls} {arguments : List Value} {v : Valuation}

theorem Table.Typed.fits {types : List ValueType} {os : List Output} {values : List Value}
    (hv : v.Typed g) (ha : List.Forall₂ g.Accepts types os) (hr : v.Reads os values) :
    Fits types values := by
  refine Pointwise.comp ha hr fun required o x ⟨actual, hactual, hc⟩ hx => ?_
  exact ValueType.compatible_trans hc (hv hx hactual)

theorem typed_eval {n : Node} (hg : g.Sound V) (hcalls : calls.Sound V) (hargs : g.Admits arguments)
    (hn : g.node? v.size = some n) (hf : v.Faithful g) (hv : v.Typed g) :
    (n.eval calls arguments v).Yields (fun values => ∀ {index : Nat} {x type},
      values[index]? = some x → g.producedType? ⟨v.size, index⟩ = some type →
        ValueType.compatible type x.type = true) Failure := by
  have hfits := hv.fits (hg.typed hn) (hf.count.reads_inputs hg.ordered hn)
  have hword := hg.words hn
  have hproduced : ∀ index, g.producedType? ⟨v.size, index⟩ = _ :=
    fun index => Graph.producedType?_of_node? hn
  obtain ⟨kind, inputs⟩ := n
  cases kind with
  | literal value =>
    refine .pure fun {index x type} hx ht => ?_
    rw [hproduced] at ht
    cases ht
    rw [List.mem_singleton.mp (List.mem_of_getElem? hx)]
    exact ValueType.compatible_self _
  | argument number declared =>
    obtain ⟨y, hy, hc⟩ := hargs hn
    refine .pure fun {index x type} hx ht => ?_
    rw [hy] at hx
    rw [List.mem_singleton.mp (List.mem_of_getElem? hx)]
    have ho : g.Produces ⟨v.size, 0⟩ := Graph.produces_of_node? hn Nat.zero_lt_one
    have hr : g.repeated? ⟨v.size, 0⟩ = none := by rw [Graph.repeated?_of_node? hn]; rfl
    exact hc type ((Graph.outputType_of_source ho hr).mpr ((hproduced 0).trans
      ((hproduced index).symm.trans ht)))
  | primitive p =>
    refine .ofExcept ?_
    have ht := Primitive.eval_typed hword hfits
    cases he : p.eval (inputs.filterMap v.value?) with
    | error e =>
      rw [he] at ht
      obtain ⟨op, rfl⟩ := ht
      trivial
    | ok values =>
      rw [he] at ht
      intro index x type hx htype
      rw [hproduced] at htype
      by_cases hz : index = 0
      · simp only [Primitive.outputType?, hz, if_true] at htype
        obtain ⟨y, rfl, hy⟩ := ht type htype
        rw [List.mem_singleton.mp (List.mem_of_getElem? hx), hy]
        exact ValueType.compatible_self _
      · simp [Primitive.outputType?, hz] at htype
  | call callee =>
    refine (hcalls hword hfits).imp (fun values h {index x type} hx ht => ?_) fun _ h => h
    rw [hproduced] at ht
    obtain ⟨y, hy, hc⟩ := Pointwise.right_of_left h ht
    cases hx.symm.trans hy
    exact hc

theorem Table.Typed.add {values : List Value} (hv : v.Typed g) (hg : g.Ordered)
    (hf : (v.add values).Faithful g)
    (hvalues : ∀ {index : Nat} {x type}, values[index]? = some x →
      g.producedType? ⟨v.size, index⟩ = some type → ValueType.compatible type x.type = true) :
    (v.add values).Typed g := by
  intro o x type hx ht
  have hlt := lt_size_of_value? hx
  rw [size_add] at hlt
  rcases Nat.lt_succ_iff_lt_or_eq.mp hlt with hold | hnew
  · rw [value?_add_of_lt values hold] at hx
    exact hv hx ht
  · have ho := Graph.produces_of_outputType ht
    cases hr : g.repeated? o with
    | some s =>
      have hs : s.node < v.size := hnew ▸ hg.repeated_lt hr
      rw [hf.repeats (by rw [size_add]; exact hlt) hr, value?_add_of_lt values hs] at hx
      rw [hg.outputType_of_repeated ho hr] at ht
      exact hv hx ht
    | none =>
      rw [Graph.outputType_of_source ho hr] at ht
      obtain ⟨id, index⟩ := o
      obtain rfl : id = v.size := hnew
      rw [value?_add_size] at hx
      exact hvalues hx ht

/-- The first nodes of a sound graph have values of the right types, unless they fail. -/
theorem typed_evaluate {nodes after : List Node} (hg : g.Sound V) (hcounted : calls.Counted)
    (hcalls : calls.Sound V) (hargs : g.Admits arguments)
    (hnodes : g.nodes.toList = nodes ++ after) :
    (evaluate calls arguments nodes #[]).Yields
      (fun v => v.size = nodes.length ∧ v.Faithful g ∧ v.Typed g) Failure := by
  have hsize : (#[] : Valuation).size = ([] : List Node).length := rfl
  have hstart : Table.Typed g #[] := by
    intro o x type hx
    exact absurd (Table.lt_size_of_value? hx) (Nat.not_lt_zero _)
  have h := evaluate_induction (P := fun v => v.Faithful g ∧ v.Typed g) (E := Failure)
    (fun {v n} hn ⟨hf, hv⟩ => by
      have hfaithful := faithful_eval hg.ordered hcounted hargs.supplied hn hf
      refine (hfaithful.and (typed_eval hg hcalls hargs hn hf hv)).imp ?_ fun _ he => he.2
      exact fun values ⟨hf', hvalues⟩ => ⟨hf', hv.add hg.ordered hf' hvalues⟩)
    hnodes hsize ⟨.empty g, hstart⟩
  simpa using h

end Typed

end StackEffect
