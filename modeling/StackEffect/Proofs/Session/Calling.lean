import StackEffect.Proofs.Session.Complaint

/-!
Where calls nest too deeply. The session itself never says so: a token that fails for it is a word
whose call does (`exists_call_of_executeToken`).
-/
namespace StackEffect

/-- The action never complains of calls that nest too deeply. -/
abbrev Action.Shallow {σ α : Type} (x : Action σ α) : Prop :=
  x.Keeps (fun _ => True) (· ≠ .runtime .callDepth)

theorem BinaryOp.apply_ne_callDepth {op : BinaryOp} {left right : Value} {e : CompileError}
    (h : op.apply left right = .error e) : e ≠ .runtime .callDepth := by
  rintro rfl
  match left, right with
  | .int a, .int b => cases onInts_error (Except.map_eq_error.mp h)
  | .float a, .float b => cases h
  | .int _, .float _ | .int _, .str _ | .float _, .int _ | .float _, .str _ | .str _, _ => cases h

theorem Cast.apply_ne_callDepth {c : Cast} {value : Value} {e : CompileError}
    (h : c.apply value = .error e) : e ≠ .runtime .callDepth := by
  rintro rfl
  unfold apply at h
  split at h <;> cases h

theorem Primitive.eval_ne_callDepth {p : Primitive} {operands : List Value} {e : CompileError}
    (h : p.eval operands = .error e) : e ≠ .runtime .callDepth := by
  unfold eval at h
  split at h
  · exact BinaryOp.apply_ne_callDepth (Except.map_eq_error.mp h)
  · exact Cast.apply_ne_callDepth (Except.map_eq_error.mp h)
  · split_ifs at h
    cases h
    simp
  · cases h
    simp

namespace Session
variable {T : Target} {s s' : Session T}

theorem shallow_topValues (word : String) (count : Nat) :
    (topValues word count : Action (Session T) (List Value)).Shallow := by
  refine .bind .get fun s => ?_
  by_cases h : count ≤ s.stack.length
  · simpa only [h, if_true] using .pure _
  · simpa only [h, if_false] using .throw (by simp)

theorem shallow_checkOperands {α : Type} (word : String) (position : Nat) (required : α → ValueType)
    (value : α → Value) (xs : List α) :
    (Action.ofExcept (xs.forM fun x => checkOperand word position (required x) (value x)) :
      Action (Session T) Unit).Shallow := by
  refine .ofExcept fun e h => ?_
  rcases checkOperands_cases word required value xs with hok | ⟨expected, actual, herror⟩
  · cases (hok position).symm.trans h
  · cases (herror position).symm.trans h
    simp

theorem shallow_modify (f : Session T → Session T) : (modify f : Action (Session T) Unit).Shallow :=
  .modify fun _ h => h

theorem shallow_executePrimitive (p : Primitive) (position : Nat) :
    (executePrimitive p position : Action (Session T) Unit).Shallow :=
  .bind (shallow_topValues _ _) fun _ =>
    .bind (shallow_checkOperands _ _ (fun _ => p.operandType) id _) fun _ =>
      .bind (.ofExcept fun _ h => Primitive.eval_ne_callDepth h) fun _ =>
        .bind (shallow_modify _) fun _ => shallow_modify _

theorem shallow_executeDirective (d : Directive) :
    (executeDirective d : Action (Session T) Unit).Shallow := by
  cases d with
  | print =>
    exact .bind (shallow_topValues _ _) fun _ => .bind (shallow_modify _) fun _ => shallow_modify _
  | printStack => exact .bind .get fun _ => shallow_modify _
  | see => exact .throw (by simp)
  | words => exact .bind .get fun _ => shallow_modify _
  | markInline =>
    refine .bind .get fun s => ?_
    cases s.dictionary.latestDefinition with
    | none => exact .throw (by simp)
    | some id => exact shallow_modify _

theorem exists_call_of_executeWord {id : WordId} {w : Word} {position : Nat}
    (h : executeWord id w position s = .error (.runtime .callDepth) s') :
    ∃ function arguments target, s.functions[id]? = some (some function) ∧
      T.execute function arguments s.target = .error (.runtime .callDepth) target ∧
      s'.dictionary = s.dictionary := by
  rcases Action.bind_eq_error.mp h with hfail | ⟨signature, s₁, hsignature, hrest⟩
  · obtain ⟨hs, -⟩ := Action.ofExcept_eq_error.mp hfail
    rcases signature_error hs with ⟨use, he⟩ | ⟨index, bound, he⟩ <;> cases he
  obtain ⟨-, rfl⟩ := Action.ofExcept_eq_ok.mp hsignature
  rcases Action.bind_eq_error.mp hrest with hfail | ⟨arguments, s₂, htop, hcall⟩
  · exact absurd rfl ((shallow_topValues _ _).error trivial hfail).2
  obtain ⟨rfl, -⟩ := topValues_eq_ok.mp htop
  rcases Action.bind_eq_error.mp hcall with hfail | ⟨_, s₃, hcheck, h⟩
  · exact absurd rfl
      ((shallow_checkOperands w.name position Prod.fst Prod.snd _).error trivial hfail).2
  obtain ⟨-, rfl⟩ := Action.ofExcept_eq_ok.mp hcheck
  simp only [drop, Action.bind_apply, Action.modify_apply, Action.get_apply] at h
  cases hf : (s₂.functions[id]?).join with
  | none =>
    simp only [hf] at h
    cases h
  | some function =>
    simp only [hf, Action.bind_apply, onTarget, Action.within_apply] at h
    cases hx : T.execute function arguments s₂.target with
    | ok results target => simp [hx, push] at h
    | error e target =>
      simp only [hx] at h
      cases h
      exact ⟨function, arguments, target, Option.join_eq_some_iff.mp hf, hx, rfl⟩

/-- A token that fails for how deep calls nest names a word whose function fails so. -/
theorem exists_call_of_executeToken {t : Token} {position : Nat}
    (h : executeToken t position s = .error (.runtime .callDepth) s') :
    ∃ id w function arguments target, s.dictionary.word? id = some w ∧ w.isUser = true ∧
      s.functions[id]? = some (some function) ∧
      T.execute function arguments s.target = .error (.runtime .callDepth) target ∧
      s'.dictionary = s.dictionary := by
  cases hn : named s.dictionary t with
  | none =>
    rw [executeToken, Action.bind_of_ok (Action.get_apply s), hn] at h
    cases hv : constant t with
    | ok value =>
      rw [hv] at h
      cases h
    | error e =>
      rw [hv] at h
      cases h
      unfold constant at hv
      split at hv <;> cases hv
  | some x =>
    obtain ⟨id, w⟩ := x
    cases hu : w.isUser with
    | true =>
      rw [executeToken_of_user hn hu] at h
      obtain ⟨function, arguments, target, hf, hx, hd⟩ := exists_call_of_executeWord h
      exact ⟨id, w, function, arguments, target, word?_of_named hn, hu, hf, hx, hd⟩
    | false =>
      rw [executeToken, Action.bind_of_ok (Action.get_apply s), hn] at h
      cases hk : w.kind with
      | compiled d => simp [Word.isUser, hk] at hu
      | external signature symbol => simp [Word.isUser, hk] at hu
      | pending =>
        simp only [hk] at h
        cases h
      | builtin b =>
        cases b with
        | primitive p =>
          simp only [hk] at h
          exact absurd rfl ((shallow_executePrimitive p position).error trivial h).2
        | directive d =>
          simp only [hk] at h
          exact absurd rfl ((shallow_executeDirective d).error trivial h).2

end Session
end StackEffect
