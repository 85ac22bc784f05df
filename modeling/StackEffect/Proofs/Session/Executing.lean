import StackEffect.Proofs.Emission
import StackEffect.Proofs.Primitive
import StackEffect.Proofs.Session.Reading

/-!
What executing a token can change. It works on the runtime stack, prints, runs code (`Calm`) and marks
the latest definition inline (`Steady`): a property of sessions that outlasts each of these steps
outlasts the execution of any token (`Steady.executeToken`).
-/
namespace StackEffect

/-- The complaint that a word is used before there is anything to use. -/
def CompileError.IsPremature : CompileError → Prop
  | .unsupported (.calleeNotCompiled _) | .unsupported (.notCompiled _)
  | .unsupported (.callsPending _) | .unsupported (.executesPending _)
  | .unsupported (.operandBeforeDefinition _) => True
  | _ => False

theorem Primitive.not_isPremature_of_eval {p : Primitive} {operands : List Value} {e : CompileError}
    (h : p.eval operands = .error e) : ¬e.IsPremature := by
  rcases eval_error h with ⟨fault, rfl⟩ | ⟨word, expected, given, rfl⟩ <;>
    simp [CompileError.IsPremature]

theorem Word.not_isPremature_of_signature {w : Word} {e : CompileError}
    (h : w.signature = .error e) : ¬e.IsPremature := by
  unfold signature at h
  split at h
  · obtain ⟨index, bound, rfl⟩ := Definition.signature_error h
    simp [CompileError.IsPremature]
  · cases h
  · cases h
    simp [CompileError.IsPremature]
  · cases h
    simp [CompileError.IsPremature]

namespace Session
variable {T : Target} {P : Session T → Prop} {E : CompileError → Prop}

theorem not_isPremature_of_constant {t : Token} {e : CompileError} (h : constant t = .error e) :
    ¬e.IsPremature := by
  unfold constant at h
  split at h
  · cases h
  · cases h
    simp [CompileError.IsPremature]

/-! ### Running code -/

/-- `P` outlasts what is done to the stack, what is printed and the running of code, and `E` holds of
what goes wrong there. -/
structure Calm (P : Session T → Prop) (E : CompileError → Prop) : Prop where
  stack : ∀ {s : Session T} (stack : List Value), P s → P { s with stack }
  output : ∀ {s : Session T} (output : String), P s → P { s with output }
  takeOver : ∀ {s : Session T}, P s → P s.takeOver
  execute : ∀ {s : Session T} (function : T.Function) (arguments : List Value), P s →
    match T.execute function arguments s.target with
    | .ok _ target => P { s with target }
    | .error e target => P { s with target } ∧ E e
  raises : ∀ {e}, ¬e.IsPremature → E e

namespace Calm

theorem with_dictionary (h : Calm P E) (d : Dictionary) : Calm (fun s => P s ∧ s.dictionary = d) E where
  stack stack hs := ⟨h.stack stack hs.1, hs.2⟩
  output output hs := ⟨h.output output hs.1, hs.2⟩
  takeOver hs := ⟨h.takeOver hs.1, hs.2⟩
  execute {s} function arguments hs := by
    have ht := h.execute function arguments hs.1
    cases hx : T.execute function arguments s.target with
    | ok results target =>
      simp only [hx] at ht
      exact ⟨ht, hs.2⟩
    | error e target =>
      simp only [hx] at ht
      exact ⟨⟨ht.1, hs.2⟩, ht.2⟩
  raises := h.raises

variable (h : Calm P E)
include h

theorem push (values : List Value) : (Session.push values).Keeps P E :=
  .modify fun _ hs => h.stack _ hs

theorem drop (count : Nat) : (Session.drop count).Keeps P E := .modify fun _ hs => h.stack _ hs

theorem print (text : String) : (Session.print text).Keeps P E := .modify fun _ hs => h.output _ hs

theorem topValues (word : String) (count : Nat) : (Session.topValues word count).Keeps P E := by
  refine .bind .get fun s => ?_
  by_cases hc : count ≤ s.stack.length
  · simpa only [hc, if_true] using .pure _
  · simpa only [hc, if_false] using .throw (h.raises (by simp [CompileError.IsPremature]))

theorem checkOperands {α : Type} {f : α → Except CompileError Unit} (xs : List α)
    (hf : ∀ x, ∃ word position required value, f x = checkOperand word position required value) :
    (Action.ofExcept (xs.forM f) : Action (Session T) Unit).Keeps P E := by
  refine .ofExcept fun e he => h.raises ?_
  obtain ⟨x, -, he⟩ := Except.exists_of_forM_eq_error he
  obtain ⟨word, position, required, value, hx⟩ := hf x
  rw [hx, checkOperand] at he
  split_ifs at he
  cases he
  simp [CompileError.IsPremature]

theorem executePrimitive (p : Primitive) (position : Nat) :
    (Session.executePrimitive p position).Keeps P E := by
  refine .bind (h.topValues _ _) fun operands => ?_
  refine .bind (h.checkOperands _ fun _ => ⟨_, _, _, _, rfl⟩) fun _ => ?_
  refine .bind (.ofExcept fun e he => h.raises (Primitive.not_isPremature_of_eval he)) fun _ => ?_
  exact .bind (h.drop _) fun _ => h.push _

theorem executeFunction (function : T.Function) (arguments : List Value) :
    (onTarget (T.execute function arguments) : Action (Session T) _).Keeps P E := by
  intro s hs
  have ht := h.execute function arguments hs
  rw [onTarget, Action.within_apply]
  cases hx : T.execute function arguments s.target with
  | ok results target => simpa only [hx] using ht
  | error e target => simpa only [hx] using ht

theorem executeWord {id : WordId} {w : Word} (position : Nat) (hid : ∀ s, P s →
      (s.functions[id]?).join = none → E (.unsupported (.notCompiled w.name))) :
    (Session.executeWord id w position).Keeps P E := by
  refine .bind (.ofExcept fun e he => h.raises (Word.not_isPremature_of_signature he)) fun _ => ?_
  refine .bind (h.topValues _ _) fun arguments => ?_
  refine .bind (h.checkOperands _ fun _ => ⟨_, _, _, _, rfl⟩) fun _ => .bind (h.drop _) fun _ => ?_
  refine .get_bind fun s hs => ?_
  cases hf : (s.functions[id]?).join with
  | none => exact ⟨hs, hid s hs hf⟩
  | some function =>
    exact (Action.Keeps.bind (h.executeFunction function arguments) fun _ =>
      .bind (.modify fun _ hs => h.takeOver hs) fun _ => h.push _).keepsAt hs

theorem see (name : String) : (Session.see name).Keeps P E := by
  refine .bind .get fun s => ?_
  cases s.dictionary.lookup name with
  | none => exact .throw (h.raises (by simp [CompileError.IsPremature]))
  | some x =>
    cases hd : x.2.definition? with
    | none => simpa only [hd] using h.print _
    | some d => simpa only [hd] using h.print _

end Calm

/-! ### Tokens -/

/-- `P` outlasts the marking of the latest definition, too, and `E` holds of the failure to find what
there is to execute. -/
structure Steady (P : Session T → Prop) (E : CompileError → Prop) : Prop extends Calm P E where
  markInline : ∀ {s : Session T} {id : WordId}, P s → s.dictionary.latestDefinition = some id →
    P { s with dictionary := s.dictionary.markInline id }
  pending : ∀ {s : Session T} {t id w}, P s → named s.dictionary t = some (id, w) →
    w.kind = .pending → E (.unsupported (.executesPending w.name))
  unfilled : ∀ {s : Session T} {id w}, P s → s.dictionary.word? id = some w → w.isUser = true →
    (s.functions[id]?).join = none → E (.unsupported (.notCompiled w.name))

namespace Steady
variable (h : Steady P E)
include h

theorem executeDirective (d : Directive) : (Session.executeDirective d).Keeps P E := by
  cases d with
  | print => exact .bind (h.topValues _ _) fun _ => .bind (h.drop _) fun _ => h.print _
  | printStack => exact .bind .get fun _ => h.print _
  | see => exact .throw (h.raises (by simp [CompileError.IsPremature]))
  | words => exact .bind .get fun _ => h.print _
  | markInline =>
    refine .get_bind fun s hs => ?_
    cases hid : s.dictionary.latestDefinition with
    | none => exact ⟨hs, h.raises (by simp [CompileError.IsPremature])⟩
    | some id => exact h.markInline hs hid

theorem executeToken (t : Token) (position : Nat) : (Session.executeToken t position).Keeps P E := by
  refine .get_bind fun s hs => ?_
  cases hn : named s.dictionary t with
  | none =>
    have hvalue : (do push [← Action.ofExcept (constant t)] : Action (Session T) Unit).Keeps P E :=
      .bind (.ofExcept fun e he => h.raises (not_isPremature_of_constant he)) fun _ => h.push _
    exact hvalue.keepsAt hs
  | some x =>
    obtain ⟨id, w⟩ := x
    have hword : w.isUser = true → (Session.executeWord id w position).KeepsAt P E s := by
      intro hu
      have hw : s.dictionary.word? id = some w := word?_of_named hn
      have hkeeps : (Session.executeWord id w position).Keeps
          (fun s' => P s' ∧ s'.dictionary = s.dictionary) E :=
        (h.with_dictionary s.dictionary).executeWord position fun s' hs' hf =>
          h.unfilled hs'.1 (hs'.2 ▸ hw) hu hf
      exact hkeeps.weaken ⟨hs, rfl⟩ fun _ hs' => hs'.1
    obtain ⟨name, kind, inline, hidden⟩ := w
    cases kind with
    | builtin b =>
      cases b with
      | primitive p => exact (h.executePrimitive p position).keepsAt hs
      | directive d => exact (h.executeDirective d).keepsAt hs
    | pending => exact ⟨hs, h.pending hs hn rfl⟩
    | compiled d => exact hword rfl
    | external signature symbol => exact hword rfl

end Steady
end Session
end StackEffect
