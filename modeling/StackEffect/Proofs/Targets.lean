import StackEffect.IRTarget
import StackEffect.MachineTarget
import StackEffect.Proofs.Emission
import StackEffect.Proofs.Primitive

/-!
The targets of this project. Generating code for the register machine changes no routine but the one
that the code is for (`Machine.keeps_target`). Neither target complains of anything but its own
affairs (`Machine.technical`, `IRModule.technical`).
-/
namespace StackEffect

/-- A complaint of a target about what it is asked to generate or to run. -/
def CompileError.IsTechnical : CompileError → Prop
  | .runtime _ | .unsupported .immediateExecution | .unsupported .outsideBody
  | .unsupported .bodyNotBegun | .unsupported (.operandCount ..) | .unsupported (.loweringType _)
  | .unsupported (.loweringPrimitive _) => True
  | _ => False

abbrev Action.Technical {σ α : Type} (x : Action σ α) : Prop :=
  x.Keeps (fun _ => True) CompileError.IsTechnical

/-- When it is asked to generate code, the target complains of its own affairs only. -/
structure Target.Technical (T : Target) : Prop where
  declare : ∀ name symbol signature, (T.declare name symbol signature).Technical
  body : ∀ function, T.Keeps (fun _ => True) CompileError.IsTechnical function

namespace Machine

theorem keeps_target {P : Array Routine → Prop} {E : CompileError → Prop} {function : RoutineId}
    (hset : ∀ {rs : Array Routine} (r : Routine), P rs → P (rs.setIfInBounds function r))
    (hE : ∀ {e}, e.IsTechnical → E e) :
    Machine.target.Keeps (fun m : Machine => P m.routines) E function := by
  have hemit : ∀ count i, (emit count i).Keeps (fun m : Machine => P m.routines) E := by
    intro count i m hm
    unfold emit
    cases m.building with
    | none => exact ⟨hm, hE trivial⟩
    | some b => exact hm
  constructor
  · exact .modify fun m hm => hm
  · exact fun index type => hemit 1 fun r => .argument r index
  · exact fun value => hemit 1 fun r => .constant r value
  · intro p operands
    have hfail : ∀ word n, (throw (.unsupported (.operandCount word n)) :
        Action Machine (List Register)).Keeps (fun m : Machine => P m.routines) E :=
      fun _ _ => .throw (hE trivial)
    match p, operands with
    | .binary op type, [left, right] => exact .bind (hemit 1 _) fun _ => .pure _
    | .binary op type, [] => exact hfail _ _
    | .binary op type, [_] => exact hfail _ _
    | .binary op type, _ :: _ :: _ :: _ => exact hfail _ _
    | .cast c, [source] => exact .bind (hemit 1 _) fun _ => .pure _
    | .cast c, [] => exact hfail _ _
    | .cast c, _ :: _ :: _ => exact hfail _ _
    | .shuffle s, operands => exact hfail _ _
  · intro callee operands
    have hcall : (emitCall callee operands).Keeps (fun m : Machine => P m.routines) E := by
      refine .bind .get fun m => ?_
      cases m.routines[callee]? with
      | none => exact .throw (hE trivial)
      | some routine => exact .bind (hemit _ _) fun _ => .pure _
    exact hcall
  · intro operands
    have hfinish : (finishBody function operands).Keeps (fun m : Machine => P m.routines) E := by
      intro m hm
      unfold finishBody
      cases m.building with
      | none => exact ⟨hm, hE trivial⟩
      | some b =>
        cases hr : m.routines[function]? with
        | none => simpa only [hr] using ⟨hm, hE trivial⟩
        | some routine => simpa only [hr] using hset _ hm
    exact hfinish


theorem technical : target.Technical where
  declare _ _ _ _ _ := trivial
  body function := @keeps_target (fun _ => True) CompileError.IsTechnical function
    (fun _ _ => trivial) id

end Machine

namespace IRModule
variable {P : Array String → Prop}

/-- What is known of the strings of the module outlasts the action, which complains of the target's
own affairs only. -/
abbrev Steady {α : Type} (P : Array String → Prop) (x : Action IRModule α) : Prop :=
  x.Keeps (fun m => P m.strings) CompileError.IsTechnical

theorem steady_modify {f : IRModule → IRModule} (hf : ∀ m, (f m).strings = m.strings) :
    Steady P (modify f : Action IRModule Unit) := .modify fun m hm => by rwa [hf m]

theorem steady_beginBody (f : IRFunction) : Steady P (beginBody f) := steady_modify fun _ => rfl

theorem steady_append (i : IRInstruction) : Steady P (append i) := steady_modify fun _ => rfl

theorem steady_newTemporary : Steady P newTemporary := fun _ hm => hm

theorem technical_ofValueType {type : ValueType} {e : CompileError}
    (h : IRType.ofValueType type = .error e) : e.IsTechnical := by
  cases type <;> cases h <;> trivial

theorem steady_ofValueTypes (types : List ValueType) :
    Steady P (Action.ofExcept (types.mapM IRType.ofValueType)) := by
  refine .ofExcept fun e h => ?_
  obtain ⟨type, -, he⟩ := Except.exists_of_mapM_eq_error h
  exact technical_ofValueType he

theorem steady_declare (name symbol : String) (signature : Signature) :
    Steady P (declare name symbol signature) := by
  refine .bind (steady_ofValueTypes _) fun results => ?_
  refine .bind (steady_ofValueTypes _) fun parameters => .bind .get fun m => ?_
  by_cases h : m.isRepeated (mangled symbol) signature = true
  · simpa only [h, if_true] using .pure _
  · simpa only [h, if_false] using .bind (steady_modify fun _ => rfl) fun _ => .pure _

theorem steady_emitArgument (index : Nat) (type : ValueType) :
    Steady P (emitArgument index type) :=
  .bind (.discard (.ofExcept fun _ => technical_ofValueType)) fun _ => .pure _

theorem steady_emitPrimitive (p : Primitive) (operands : List IROperand) :
    Steady P (emitPrimitive p operands) := by
  refine .bind steady_newTemporary fun target => ?_
  dsimp only
  split
  · exact .bind (steady_append _) fun _ => .pure _
  · exact .bind (steady_append _) fun _ => .pure _
  · exact .bind (steady_modify fun _ => rfl) fun _ => .bind (steady_append _) fun _ => .pure _
  · exact .bind (steady_append _) fun _ => .pure _
  · exact .bind (.throw trivial) fun _ => .pure _

theorem steady_emitCall (f : IRFunction) (arguments : List IROperand) :
    Steady P (emitCall f arguments) := by
  unfold emitCall
  dsimp only
  split_ifs
  · exact .bind (steady_append _) fun _ => .pure _
  · exact .bind steady_newTemporary fun _ => .bind (steady_append _) fun _ => .pure _
  · refine .bind steady_newTemporary fun target => .bind (steady_append _) fun _ => ?_
    exact .mapM (fun index => .bind steady_newTemporary fun field =>
      .bind (steady_append _) fun _ => .pure _) _

theorem technical_emitLiteral (value : Value) : (emitLiteral value).Technical := by
  cases value with
  | int n => exact .pure _
  | float x => exact .pure _
  | str s =>
    refine .map _ fun m _ => ?_
    unfold stringGlobal
    cases m.strings.idxOf? s <;> trivial

theorem steady_emitAggregate (f : IRFunction) (outputs : List IROperand) :
    Steady P (emitAggregate f outputs) :=
  .foldlM (fun _ _ _ => .bind steady_newTemporary fun _ => .bind (steady_append _) fun _ => .pure _)
    _

theorem steady_finishBody (f : IRFunction) (outputs : List IROperand) :
    Steady P (finishBody f outputs) := by
  refine .bind ?_ fun last => steady_modify fun m => ?_
  · unfold emitReturn
    split
    · exact .pure _
    · exact .throw trivial
    · exact .pure _
    · exact .map _ (steady_emitAggregate f _)
  · unfold markDefined
    split <;> rfl

theorem steady_execute (f : IRFunction) (values : List Value) :
    Steady P (target.execute f values) := fun _ hm => ⟨hm, trivial⟩

theorem technical : target.Technical where
  declare := steady_declare (P := fun _ => True)
  body function := {
    beginBody := steady_beginBody (P := fun _ => True) function
    argument := steady_emitArgument (P := fun _ => True)
    literal := technical_emitLiteral
    primitive := steady_emitPrimitive (P := fun _ => True)
    call := steady_emitCall (P := fun _ => True)
    finishBody := steady_finishBody (P := fun _ => True) function }

end IRModule

end StackEffect
