import StackEffect.Proofs.Graph.Typing
import StackEffect.Proofs.Pointwise
import StackEffect.Proofs.Sequencing

/-!
The operations on values. An operation gives as many results as it has outputs, shuffles repeat their
operands (`Primitive.eval_counted`), and operands of the types that are asked for give results of the
types that are declared, but for a division by zero (`Primitive.eval_typed`).
-/
namespace StackEffect

/-- Values of the types that are asked for. -/
def Fits (types : List ValueType) (values : List Value) : Prop :=
  List.Forall₂ (fun type (value : Value) => ValueType.compatible type value.type = true) types values

instance (types : List ValueType) (values : List Value) : Decidable (Fits types values) :=
  inferInstanceAs (Decidable (List.Forall₂ _ types values))

theorem Shuffle.reads_apply {α : Type} {s : Shuffle} {operands : List α}
    (h : operands.length = s.arity) :
    List.Forall₂ (fun (i : Nat) x => operands[i]? = some x) s.sources (s.apply operands) :=
  Pointwise.filterMap fun _ hi =>
    ⟨_, List.getElem?_eq_getElem (h ▸ Shuffle.lt_arity_of_mem_sources hi)⟩

theorem Primitive.eval_shuffle_eq_ok {s : Shuffle} {operands values : List Value} :
    (shuffle s).eval operands = .ok values ↔
      operands.length = s.arity ∧ values = s.apply operands := by
  unfold eval
  by_cases h : operands.length = s.arity <;> simp [h, eq_comm]

theorem Primitive.eval_binary_eq_ok {op : BinaryOp} {type : ValueType}
    {operands values : List Value} : (binary op type).eval operands = .ok values ↔
      ∃ left right x, operands = [left, right] ∧ op.apply left right = .ok x ∧ values = [x] := by
  match operands with
  | [left, right] => cases h : op.apply left right <;> simp [eval, h, Except.map, eq_comm]
  | [] => simp [eval]
  | [_] => simp [eval]
  | _ :: _ :: _ :: _ => simp [eval]

theorem Primitive.eval_cast_eq_ok {c : Cast} {operands values : List Value} :
    (cast c).eval operands = .ok values ↔
      ∃ value x, operands = [value] ∧ c.apply value = .ok x ∧ values = [x] := by
  match operands with
  | [value] => cases h : c.apply value <;> simp [eval, h, Except.map, eq_comm]
  | [] => simp [eval]
  | _ :: _ :: _ => simp [eval]

/-- An operation has one value for each output, and an output of a shuffle has the value of the
operand that it repeats. -/
theorem Primitive.eval_counted {p : Primitive} {operands values : List Value}
    (h : p.eval operands = .ok values) : values.length = p.outputArity ∧
      ∀ {index place : Nat}, Graph.repeatedPlace? (.primitive p) index = some place →
        values[index]? = operands[place]? := by
  cases p with
  | shuffle s =>
    obtain ⟨hl, rfl⟩ := eval_shuffle_eq_ok.mp h
    have hr := Shuffle.reads_apply hl
    refine ⟨hr.length_eq.symm, fun {index place} hp => ?_⟩
    obtain ⟨x, hx, hv⟩ := Pointwise.right_of_left hr hp
    rw [hx, hv]
  | binary op type =>
    obtain ⟨left, right, x, -, -, rfl⟩ := eval_binary_eq_ok.mp h
    exact ⟨rfl, fun hp => nomatch hp⟩
  | cast c =>
    obtain ⟨value, x, -, -, rfl⟩ := eval_cast_eq_ok.mp h
    exact ⟨rfl, fun hp => nomatch hp⟩

/-! ### Failures -/

theorem BinaryOp.onInts_error {op : BinaryOp} {a b : Int32} {e : CompileError}
    (h : op.onInts a b = .error e) : e = .runtime (.divisionByZero op) := by
  cases op with
  | add => cases h
  | sub => cases h
  | mul => cases h
  | div =>
    simp only [onInts] at h
    split_ifs at h
    cases h
    rfl
  | mod =>
    simp only [onInts] at h
    split_ifs at h
    cases h
    rfl

theorem BinaryOp.apply_error {op : BinaryOp} {left right : Value} {e : CompileError}
    (h : op.apply left right = .error e) : ∃ fault, e = .runtime fault := by
  match left, right with
  | .int a, .int b => exact ⟨_, onInts_error (Except.map_eq_error.mp h)⟩
  | .float a, .float b => cases h
  | .int _, .float _ | .int _, .str _ | .float _, .int _ | .float _, .str _ | .str _, _ =>
    cases h
    exact ⟨_, rfl⟩

theorem Cast.apply_error {c : Cast} {value : Value} {e : CompileError}
    (h : c.apply value = .error e) : ∃ fault, e = .runtime fault := by
  unfold apply at h
  split at h
  · cases h
  · cases h
  · cases h
  · cases h
    exact ⟨_, rfl⟩

/-- An operation fails at run time, or for the number of its operands. -/
theorem Primitive.eval_error {p : Primitive} {operands : List Value} {e : CompileError}
    (h : p.eval operands = .error e) : (∃ fault, e = .runtime fault) ∨
      ∃ word expected given, e = .arity word (.operandCount expected given) := by
  unfold eval at h
  split at h
  · exact .inl (BinaryOp.apply_error (Except.map_eq_error.mp h))
  · exact .inl (Cast.apply_error (Except.map_eq_error.mp h))
  · split_ifs at h
    cases h
    exact .inr ⟨_, _, _, rfl⟩
  · cases h
    exact .inr ⟨_, _, _, rfl⟩

/-! ### Types -/

theorem Value.eq_int {x : Value} (h : x.type = .int32) : ∃ n, x = .int n := by
  cases x <;> simp_all [type]

theorem Value.eq_float {x : Value} (h : x.type = .float) : ∃ y, x = .float y := by
  cases x <;> simp_all [type]

/-- Numbers of the kind of an operation can be combined, but for a division by zero. -/
theorem BinaryOp.apply_typed {op : BinaryOp} {type : ValueType} {left right : Value}
    (ht : type = .int32 ∨ type = .float) (hl : left.type = type) (hr : right.type = type) :
    match op.apply left right with
    | .ok x => x.type = type
    | .error e => e = .runtime (.divisionByZero op) := by
  rcases ht with rfl | rfl
  · obtain ⟨a, rfl⟩ := Value.eq_int hl
    obtain ⟨b, rfl⟩ := Value.eq_int hr
    cases op with
    | add => rfl
    | sub => rfl
    | mul => rfl
    | div => by_cases h : b = 0 <;> simp [apply, onInts, h, Except.map, Value.type]
    | mod => by_cases h : b = 0 <;> simp [apply, onInts, h, Except.map, Value.type]
  · obtain ⟨a, rfl⟩ := Value.eq_float hl
    obtain ⟨b, rfl⟩ := Value.eq_float hr
    rfl

theorem Cast.apply_typed {c : Cast} {value : Value} (h : value.type = c.source) :
    ∃ x, c.apply value = .ok x ∧ x.type = c.target := by
  cases c with
  | intToString =>
    obtain ⟨n, rfl⟩ := Value.eq_int h
    exact ⟨_, rfl, rfl⟩
  | intToFloat =>
    obtain ⟨n, rfl⟩ := Value.eq_int h
    exact ⟨_, rfl, rfl⟩
  | floatToInt =>
    obtain ⟨y, rfl⟩ := Value.eq_float h
    exact ⟨_, rfl, rfl⟩

theorem ValueType.eq_of_compatible {required actual : ValueType} (h : required ≠ .any)
    (hc : compatible required actual = true) : actual = required := by
  rcases compatible_iff.mp hc with h' | h'
  · exact h'.symm
  · contradiction

/-- Operands of the types that an operation asks for give results of the types that it declares; a
division by zero is all that can go wrong. -/
theorem Primitive.eval_typed {p : Primitive} {operands : List Value} (hp : p.Regular)
    (h : Fits (List.replicate p.inputArity p.operandType) operands) :
    match p.eval operands with
    | .ok values => ∀ type, p.resultType? = some type → ∃ x, values = [x] ∧ x.type = type
    | .error e => ∃ op, e = .runtime (.divisionByZero op) := by
  cases p with
  | shuffle s =>
    have hl : operands.length = s.arity := by
      rw [← h.length_eq, List.length_replicate]
      rfl
    simp [eval, hl, resultType?]
  | binary op type =>
    have hne : type ≠ .any := by
      rcases hp with rfl | rfl <;> decide
    match operands, h with
    | [left, right], .cons hl (.cons hr .nil) =>
      have hl' := ValueType.eq_of_compatible hne hl
      have hr' := ValueType.eq_of_compatible hne hr
      have ht := @BinaryOp.apply_typed op type left right hp hl' hr'
      cases ha : op.apply left right with
      | ok x =>
        rw [ha] at ht
        simp [eval, ha, Except.map, resultType?, ht]
      | error e =>
        rw [ha] at ht
        simp [eval, ha, Except.map, ht]
  | cast c =>
    match operands, h with
    | [value], .cons hv .nil =>
      have hne : c.source ≠ .any := by cases c <;> decide
      obtain ⟨x, hx, ht⟩ := Cast.apply_typed (ValueType.eq_of_compatible hne hv)
      simp [eval, hx, Except.map, resultType?, ht]

end StackEffect
