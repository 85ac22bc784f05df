import StackEffect.Proofs.Session.Typing
import StackEffect.Proofs.Targets

/-!
Definitions that are turned down for a type. Generating code never fails for the type of a value
(`untyped_generate`), so that a type error comes from reading the body (`readBody_of_define`), at the
position of the token that is being read (`names_apply`).
-/
namespace StackEffect

/-- Not the complaint that a value has the wrong type. -/
def Untyped (e : CompileError) : Prop :=
  ∀ word position required actual, e ≠ .typeMismatch word position required actual

theorem CompileError.IsTechnical.untyped {e : CompileError} (h : e.IsTechnical) : Untyped e := by
  rintro word position required actual rfl
  exact h

namespace Session
variable {T : Target}

theorem untyped_generate (hT : T.Technical) (d : Definition) (functions : FunctionTable T) :
    (generate d functions).Keeps (fun _ => True) Untyped := by
  have raises : Emission.Raises d.graph functions Untyped := by
    constructor <;> simp [Untyped]
  exact keeps_generate (fun _ => (hT.declare _ _ _).imp fun _ he => he.untyped)
    (fun function => (hT.body function).imp fun _ he => he.untyped) raises

/-- What is turned down for a type is turned down while the body is read. -/
theorem readBody_of_define (hT : T.Technical) {name : String} {body : List Token}
    {s s₁ : Session T} {word : String} {position : Nat} {expected actual : ValueType}
    (h : define name body none s = .error (.typeMismatch word position expected actual) s₁) :
    ∃ draft, readBody s.dictionary body {} =
      .error (.typeMismatch word position expected actual) draft := by
  rw [define_eq] at h
  cases hread : readBody s.dictionary body {} with
  | error e draft =>
    simp only [hread] at h
    cases h
    exact ⟨draft, rfl⟩
  | ok u draft =>
    simp only [hread] at h
    cases hg : generate (draft.toDefinition name body) (s.functions.push none) s.target with
    | error e target =>
      simp only [hg] at h
      cases h
      obtain ⟨-, he⟩ := (untyped_generate hT _ _).error trivial hg
      exact absurd rfl (he word position expected actual)
    | ok function target =>
      simp only [hg] at h
      cases h

end Session

/-! ### The position of a type error -/

/-- A type error is that of the token at `position`. -/
def Names (position : Nat) (e : CompileError) : Prop :=
  ∀ word place required actual, e = .typeMismatch word place required actual → place = position

namespace Draft

theorem names_accept {d : Draft} {o : Output} {required : ValueType} {word : String}
    {position : Nat} {e : CompileError} (h : d.accept o required word position = .error e) :
    Names position e := by
  rintro word' place required' actual' rfl
  unfold accept at h
  rcases Except.bind_eq_error.mp h with h | ⟨actual, -, h⟩
  · obtain ⟨index, bound, h⟩ := Graph.outputType_error h
    cases h
  · dsimp only at h
    split_ifs at h <;> cases h
    rfl

theorem names_pop (required : ValueType) (word : String) (position : Nat) :
    (pop required word position).Keeps (fun _ => True) (Names position) := by
  intro d _
  unfold pop
  simp only
  cases h : (d.takeTop required).2.accept (d.takeTop required).1 required word position with
  | ok e => trivial
  | error e => exact ⟨trivial, names_accept h⟩

theorem names_insert {add : Graph → Except CompileError Graph} {position : Nat}
    (h : ∀ g e, add g = .error e → Names position e) :
    (insert add).Keeps (fun _ => True) (Names position) := by
  intro d _
  unfold insert
  cases hg : add d.graph with
  | ok g => trivial
  | error e => exact ⟨trivial, h d.graph e hg⟩

theorem names_apply (p : Primitive) (position : Nat) :
    (apply p position).Keeps (fun _ => True) (Names position) := by
  refine .bind (.mapM (fun type => names_pop type p.name position) _) fun inputs => ?_
  refine .bind (names_insert fun g e h => ?_) fun id =>
    .bind (.modify fun _ _ => trivial) fun _ => .pure id
  unfold Graph.addPrimitive at h
  split_ifs at h
  cases h
  simp [Names]

end Draft
end StackEffect
