import StackEffect.Proofs.Arithmetic
import StackEffect.Proofs.Machine.Acceptance
import StackEffect.Proofs.Session.Immediate

/-!
Operations on integers, at the top level and as the body of a word. The top of the stack is the right
operand of an operation that is executed at once. In a body it becomes argument 0, and is the right
operand again (`meaning_draft`), so that the word does what the operation does
(`operates_exactly`).
-/
namespace StackEffect
namespace BinaryOp

def draft (op : BinaryOp) : Draft where
  graph.nodes := #[⟨.argument 0 .int32, []⟩, ⟨.argument 1 .int32, []⟩,
    ⟨.primitive (.binary op .int32), [⟨1, 0⟩, ⟨0, 0⟩]⟩]
  stack := [⟨2, 0⟩]
  arguments := #[0, 1]

variable {name : String} {body : List Token}

theorem signature_draft (op : BinaryOp) :
    (op.draft.toDefinition name body).signature = .ok ⟨[.int32, .int32], [.int32]⟩ := rfl

theorem meaning_draft (op : BinaryOp) (calls : Calls) (left right : Value) :
    (op.draft.toDefinition name body).meaning calls [right, left] =
      Action.ofExcept ((op.apply left right).map ([·])) := by
  let operation : Node := ⟨.primitive (.binary op .int32), [⟨1, 0⟩, ⟨0, 0⟩]⟩
  have harguments : (op.draft.toDefinition name body).graph.evaluate calls [right, left] =
      evaluate calls [right, left] [operation] #[[right], [left]] := rfl
  have hoperation : operation.eval calls [right, left] #[[right], [left]] =
      Action.ofExcept ((op.apply left right).map ([·])) := rfl
  rw [Definition.meaning, harguments, evaluate_cons, hoperation]
  cases op.apply left right <;> rfl

end BinaryOp

namespace Session
variable {s s₁ : Session Machine.target} {op : BinaryOp} {t : Token} {id : WordId} {w : Word}
  {name : String}

theorem readBody_operation (hn : named s.dictionary t = some (id, w))
    (hk : w.kind = .builtin (.primitive (.binary op .int32))) :
    readBody s.dictionary [t] {} = .ok () op.draft := by
  have hread : readToken s.dictionary t 0 {} = .ok () op.draft := by
    have happly : Draft.apply (.binary op .int32) 0 {} = .ok 2 op.draft := rfl
    simp only [readToken, hn, compileWord, hk]
    exact Action.discard_eq_ok.mpr ⟨2, happly⟩
  exact Action.bind_of_ok hread _

/-- The operation takes its operands off the stack; they stay if it fails. -/
theorem executeToken_operation {T : Target} {s : Session T}
    (hn : named s.dictionary t = some (id, w))
    (hk : w.kind = .builtin (.primitive (.binary op .int32))) (a b : Int32) (rest : List Value)
    (position : Nat) :
    executeToken t position { s with stack := .int b :: .int a :: rest } =
      match op.apply (.int a) (.int b) with
      | .ok x => .ok () { s with stack := x :: rest }
      | .error e => .error e { s with stack := .int b :: .int a :: rest } := by
  let start : Session T := { s with stack := .int b :: .int a :: rest }
  have hstack : start.stack = [.int b, .int a] ++ rest := rfl
  have hfits : Fits [.int32, .int32] [.int b, .int a] := .cons rfl (.cons rfl .nil)
  have hnamed : named start.dictionary t = some (id, w) := hn
  have hexecute : executeToken t position start = _ :=
    (executeToken_of_primitive hnamed hk position).trans (executePrimitive_eq hstack hfits)
  have heval : (Primitive.binary op .int32).eval [.int a, .int b] =
      (op.apply (.int a) (.int b)).map ([·]) := rfl
  rw [hexecute, List.reverse_cons, List.reverse_singleton, List.singleton_append, heval]
  cases op.apply (.int a) (.int b) <;> rfl

/-- A word of the operation does the same, but does not give its operands back. -/
theorem executeToken_operator (h : Accepted s s₁ name [t] op.draft) {t' : Token}
    (ht : t'.text = name) (hstring : isString t' = false) (a b : Int32) (rest : List Value)
    (position : Nat) :
    executeToken t' position { s₁ with stack := .int b :: .int a :: rest } =
      match op.apply (.int a) (.int b) with
      | .ok x => .ok () ({ s₁ with stack := x :: rest } : Session Machine.target).takeOver
      | .error e => .error e { s₁ with stack := rest } := by
  let start : Session Machine.target := { s₁ with stack := .int b :: .int a :: rest }
  have hnamed : named start.dictionary t' =
      some (s.dictionary.size, .compiled name (op.draft.toDefinition name [t])) := by
    simp [start, named, hstring, ht, h.word]
  have hstack : start.stack = [.int b, .int a] ++ rest := rfl
  have hfits : Fits [.int32, .int32] [.int b, .int a] := .cons rfl (.cons rfl .nil)
  have hexecute : executeToken t' position start = _ :=
    (executeToken_of_user hnamed rfl position).trans
      (executeWord_eq op.signature_draft h.function hstack hfits)
  have happly : Machine.target.execute s.target.routines.size [.int b, .int a] s₁.target = _ :=
    Machine.execute_apply s.target.routines.size [.int b, .int a] s₁.target
  have hcomputes := h.computes [.int b, .int a] rfl
  rw [op.meaning_draft] at hcomputes
  rw [hexecute, happly, hcomputes]
  cases op.apply (.int a) (.int b) <;> rfl

/-- Integer arithmetic fails just for the divisor zero and is arithmetic modulo `2 ^ 32`. The same comes
out at the top level and of a word whose body is the operation, which is always accepted; the left
operand is the deeper one. -/
theorem operates_exactly (h : Reachable ({} : Machine) s) (hn : named s.dictionary t = some (id, w))
    (hk : w.kind = .builtin (.primitive (.binary op .int32))) (name : String) :
    (∀ a b, BinaryOp.Exact a b) ∧
    (∀ a b rest position,
      executeToken t position { s with stack := .int b :: .int a :: rest } =
        match op.apply (.int a) (.int b) with
        | .ok x => .ok () { s with stack := x :: rest }
        | .error e => .error e { s with stack := .int b :: .int a :: rest }) ∧
    ∃ s₁, define name [t] none s = .ok () s₁ ∧ ∀ (t' : Token) a b rest position,
      t'.text = name → isString t' = false →
      executeToken t' position { s₁ with stack := .int b :: .int a :: rest } =
        match op.apply (.int a) (.int b) with
        | .ok x => .ok () ({ s₁ with stack := x :: rest } : Session Machine.target).takeOver
        | .error e => .error e { s₁ with stack := rest } := by
  obtain ⟨s₁, hdefine⟩ := exists_define h.linked (readBody_operation hn hk) name
  obtain ⟨draft, haccepted⟩ := accepted_of_define h.linked hdefine
  have hread := haccepted.read
  rw [readBody_operation hn hk] at hread
  cases hread
  refine ⟨BinaryOp.exact, executeToken_operation hn hk, s₁, hdefine, ?_⟩
  intro t' a b rest position ht hstring
  exact executeToken_operator haccepted ht hstring a b rest position

/-- The quotient that wraps around, and a divisor zero, in a session that has another name for `/`. -/
theorem operates_exactly_least : ∃ s₁, define "per" [wordToken "/"] none (ofText ": + - ;") = .ok () s₁ ∧
    executeToken (wordToken "per") 0
      { s₁ with stack := [.int (-1), .int Int32.minValue, .str "below"] } =
        .ok () ({ s₁ with stack := [.int Int32.minValue, .str "below"] } :
          Session Machine.target).takeOver ∧
    executeToken (wordToken "per") 0 { s₁ with stack := [.int 0, .int 7, .str "below"] } =
      .error (.runtime (.divisionByZero .div)) { s₁ with stack := [.str "below"] } := by
  have hnamed : named (ofText ": + - ;").dictionary (wordToken "/") =
      some (8, .builtin "/" (.primitive (.binary .div .int32))) := by decide +kernel
  obtain ⟨-, -, s₁, hdefine, hcompiled⟩ :=
    operates_exactly (reachable_ofText ": + - ;") hnamed rfl "per"
  have hleast : BinaryOp.div.apply (.int Int32.minValue) (.int (-1)) = .ok (.int Int32.minValue) := by
    decide
  have hleast' := hcompiled (wordToken "per") Int32.minValue (-1) [.str "below"] 0 rfl rfl
  rw [hleast] at hleast'
  exact ⟨s₁, hdefine, hleast', hcompiled (wordToken "per") 7 0 [.str "below"] 0 rfl rfl⟩

end Session
end StackEffect
