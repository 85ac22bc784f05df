import StackEffect.Proofs.Dictionary
import StackEffect.Proofs.Primitive
import StackEffect.Proofs.Sequencing
import StackEffect.Session

/-!
Immediate execution. A word that finds what it asks for on top of the stack takes it off and pushes
its results; what lies below stays as it is (`executePrimitive_eq`, `executeWord_eq`).
-/
namespace StackEffect.Session
variable {T : Target} {s s' : Session T} {word : String} {position : Nat} {types : List ValueType}
  {values rest : List Value}

/-- Executes tokens one after the other, the first at `start` in the text. -/
def executeTokens (tokens : List Token) (start : Nat) : Action (Session T) Unit :=
  (tokens.zipIdx start).forM fun (t, position) => executeToken t position

theorem executeTokens_cons (t : Token) (tokens : List Token) (start : Nat) :
    (executeTokens (t :: tokens) start : Action (Session T) Unit) =
      executeToken t start >>= fun _ => executeTokens tokens (start + 1) := rfl

/-! ### Operands -/

theorem topValues_append (h : s.stack = values ++ rest) :
    topValues word values.length s = .ok values s := by
  simp [topValues, Action.bind_apply, h]

theorem topValues_eq_ok {count : Nat} : topValues word count s = .ok values s' ↔
    s' = s ∧ values.length = count ∧ ∃ rest, s.stack = values ++ rest := by
  unfold topValues
  rw [Action.bind_of_ok (Action.get_apply s)]
  by_cases h : count ≤ s.stack.length
  · simp only [h, if_true, Action.pure_apply, EStateM.Result.ok.injEq]
    constructor
    · rintro ⟨rfl, rfl⟩
      exact ⟨rfl, List.length_take_of_le h, _, (List.take_append_drop count _).symm⟩
    · rintro ⟨rfl, rfl, rest, hs⟩
      exact ⟨by rw [hs, List.take_left], rfl⟩
  · simp only [h, if_false, Action.throw_apply]
    constructor
    · intro h'
      cases h'
    · rintro ⟨-, rfl, rest, hs⟩
      exact absurd (by simp [hs]) h

theorem checkOperand_eq_ok {required : ValueType} {value : Value} {u : Unit} :
    checkOperand word position required value = .ok u ↔
      ValueType.compatible required value.type = true := by
  unfold checkOperand
  by_cases h : ValueType.compatible required value.type = true <;> simp [h]

theorem forM_eq_ok {α : Type} {f : α → Except CompileError Unit} {xs : List α} {u : Unit} :
    xs.forM f = .ok u ↔ ∀ x ∈ xs, f x = .ok () := by
  induction xs with
  | nil => simp [List.forM, pure, Except.pure]
  | cons x xs ih =>
    have hcons : (x :: xs).forM f = f x >>= fun _ => xs.forM f := rfl
    rw [hcons, Except.bind_eq_ok, List.forall_mem_cons, ← ih]
    constructor
    · rintro ⟨⟨⟩, hx, hxs⟩
      exact ⟨hx, hxs⟩
    · rintro ⟨hx, hxs⟩
      exact ⟨⟨⟩, hx, hxs⟩

theorem checkOperands_eq_ok {required : ValueType} {u : Unit} :
    values.reverse.forM (checkOperand word position required) = .ok u ↔
      Fits (List.replicate values.length required) values := by
  simp only [forM_eq_ok, checkOperand_eq_ok, List.mem_reverse]
  unfold Fits
  induction values with
  | nil => simp
  | cons x values ih => simp [List.replicate_succ, ih]

theorem checkArguments_eq_ok {u : Unit} (hl : values.length = types.length) :
    (types.zip values).forM (fun (required, value) => checkOperand word position required value) =
      .ok u ↔ Fits types values := by
  simp only [forM_eq_ok, checkOperand_eq_ok]
  unfold Fits
  induction types generalizing values with
  | nil => simp [List.eq_nil_of_length_eq_zero hl]
  | cons type types ih =>
    cases values with
    | nil => contradiction
    | cons x values =>
      rw [List.zip_cons_cons, List.forall_mem_cons, List.forall₂_cons, ih (Nat.succ.inj hl)]

/-! ### Tokens -/

theorem executeToken_of_literal {t : Token} {value : Value} (hn : named s.dictionary t = none)
    (hv : constant t = .ok value) (position : Nat) :
    executeToken t position s = .ok () { s with stack := value :: s.stack } := by
  rw [executeToken, Action.bind_of_ok (Action.get_apply s), hn]
  simp only [hv, Action.bind_apply, Action.ofExcept_ok]
  rfl

theorem executeToken_of_primitive {t : Token} {id : WordId} {w : Word} {p : Primitive}
    (hn : named s.dictionary t = some (id, w)) (hk : w.kind = .builtin (.primitive p))
    (position : Nat) : executeToken t position s = executePrimitive p position s := by
  rw [executeToken, Action.bind_of_ok (Action.get_apply s), hn]
  simp only [hk]

theorem executeToken_of_user {t : Token} {id : WordId} {w : Word}
    (hn : named s.dictionary t = some (id, w)) (hu : w.isUser = true) (position : Nat) :
    executeToken t position s = executeWord id w position s := by
  rw [executeToken, Action.bind_of_ok (Action.get_apply s), hn]
  rcases Word.isUser_iff.mp hu with ⟨signature, symbol, hk⟩ | ⟨f, hk⟩
  · simp only [hk]
  · simp only [hk]

/-! ### Words -/

theorem executePrimitive_eq {p : Primitive} (hs : s.stack = values ++ rest)
    (hfits : Fits (List.replicate p.inputArity p.operandType) values) :
    executePrimitive p position s = match p.eval values.reverse with
      | .ok results => .ok () { s with stack := results.reverse ++ rest }
      | .error e => .error e s := by
  have hl : values.length = p.inputArity := by
    rw [← hfits.length_eq, List.length_replicate]
  rw [← hl] at hfits
  have hcheck : values.reverse.forM (checkOperand p.name position p.operandType) = .ok () :=
    checkOperands_eq_ok.mpr hfits
  have htop : topValues p.name p.inputArity s = .ok values s := hl ▸ topValues_append hs
  rw [executePrimitive, Action.bind_of_ok htop, hcheck]
  simp only [Action.bind_apply, Action.ofExcept_ok]
  cases p.eval values.reverse with
  | error e => rfl
  | ok results => simp [drop, push, hs, ← hl]

/-- An operation that has been executed has found what it asks for. -/
theorem fits_of_executePrimitive {p : Primitive} {u : Unit}
    (h : executePrimitive p position s = .ok u s') : ∃ values rest, s.stack = values ++ rest ∧
      Fits (List.replicate p.inputArity p.operandType) values := by
  obtain ⟨values, s₁, htop, hrest⟩ := Action.bind_eq_ok.mp h
  obtain ⟨rfl, hl, rest, hs⟩ := topValues_eq_ok.mp htop
  obtain ⟨u', s₂, hcheck, -⟩ := Action.bind_eq_ok.mp hrest
  obtain ⟨hoperands, -⟩ := Action.ofExcept_eq_ok.mp hcheck
  exact ⟨values, rest, hs, hl ▸ checkOperands_eq_ok.mp hoperands⟩

theorem executeWord_eq {id : WordId} {w : Word} {signature : Signature} {function : T.Function}
    (hw : w.signature = .ok signature) (hf : s.functions[id]? = some (some function))
    (hs : s.stack = values ++ rest) (hfits : Fits signature.inputs values) :
    executeWord id w position s = match T.execute function values s.target with
      | .ok results target =>
        .ok () { ({ s with stack := rest, target } : Session T).takeOver with
          stack := results.reverse ++ rest }
      | .error e target => .error e { s with stack := rest, target } := by
  have hl : values.length = signature.inputArity := hfits.length_eq.symm
  have hcheck : (signature.inputs.zip values).forM (fun (required, value) =>
      checkOperand w.name position required value) = .ok () :=
    (checkArguments_eq_ok hl).mpr hfits
  have htop : topValues w.name signature.inputArity s = .ok values s := hl ▸ topValues_append hs
  have hsignature : (Action.ofExcept w.signature : Action (Session T) _) s = .ok signature s := by
    rw [hw]
    rfl
  have hdrop : s.stack.drop signature.inputArity = rest := by simp [hs, ← hl]
  rw [executeWord, Action.bind_of_ok hsignature, Action.bind_of_ok htop, hcheck]
  simp only [Action.bind_apply, Action.ofExcept_ok, drop, Action.modify_apply, Action.get_apply, hf,
    Option.join_some, onTarget, Action.within_apply, hdrop]
  cases T.execute function values s.target with
  | error e target => rfl
  | ok results target => rfl

end StackEffect.Session
