import StackEffect.Proofs.Machine.Frame
import StackEffect.Proofs.Session.Flow

/-!
Definitions that are accepted. A session that executes its code accepts a definition just if the body
can be read (`define_iff`), as code can be generated for whatever has been read. What is known of the
new word is `Accepted`; its function answers and prints what its graph means where the body was read
(`Accepted.observe_eq`).
-/
namespace StackEffect

/-- What the words in a body do, when the body is executed at the top level. -/
def Machine.calls (m : Machine) (functions : FunctionTable Machine.target) : Calls :=
  invoke functions (callWithin m.routines maxCallDepth)

namespace Session
variable {s s₁ : Session Machine.target} {name : String} {body : List Token} {draft : Draft}

/-- What is known of a definition that has been accepted: its body has been read, its word is found
under its name, and its function does what its graph means where the body was read. -/
structure Accepted (s s₁ : Session Machine.target) (name : String) (body : List Token)
    (draft : Draft) : Prop where
  read : readBody s.dictionary body {} = .ok () draft
  word : s₁.dictionary.lookup name =
    some (s.dictionary.size, .compiled name (draft.toDefinition name body))
  function : s₁.functions[s.dictionary.size]? = some (some s.target.routines.size)
  computes : ∀ values, values.length = draft.arguments.size →
    Machine.callWithin s₁.target.routines (Machine.maxCallDepth + 1) s.target.routines.size values =
      (draft.toDefinition name body).meaning (s.target.calls s.functions) values
  declines : ∀ values, values.length ≠ draft.arguments.size →
    Machine.callWithin s₁.target.routines (Machine.maxCallDepth + 1) s.target.routines.size values =
      throw (.runtime (.argumentCount name values.length draft.arguments.size))
  output : s₁.output = s.output ++
    if s.traces then (draft.toDefinition name body).trace ++ "\n" else ""
  printed : s₁.target.output = s.target.output
  stack : s₁.stack = s.stack

theorem accepted_of_define (h : Machine.Linked s.dictionary s.target s.functions) {u : Unit}
    (hdefine : define name body none s = .ok u s₁) : ∃ draft, Accepted s s₁ name body draft := by
  obtain ⟨draft, function, target, hread, hg, rfl⟩ := define_eq_ok hdefine
  have hf : (draft.toDefinition name body).Sound s.dictionary.vocabulary :=
    sound_toDefinition h.sound hread
  obtain ⟨signature, b, hs, rfl, hrealises, rfl⟩ := Machine.generate_eq_ok hf hg
  have harity : draft.arguments.size = signature.inputArity := Draft.size_arguments hs
  have hroutine : (s.target.routines.push ⟨name, name, signature, some b⟩)[
      s.target.routines.size]? = some ⟨name, name, signature, some b⟩ := Array.getElem?_push_size
  refine ⟨draft, hread, s.lookup_defined .., ?_, fun values hl => ?_, fun values hl => ?_, ?_,
    rfl, rfl⟩
  · simp only [defined, ← h.size, setIfInBounds_push, Array.getElem?_push_size]
  · have hlength : values.length = (draft.toDefinition name body).arguments.length := by
      simp [hl, Draft.toDefinition]
    have hcalls : ∀ c, s.dictionary.vocabulary c →
        Machine.invoke (s.functions.push none) (Machine.callWithin (s.target.routines.push
          ⟨name, name, signature, some b⟩) Machine.maxCallDepth) c =
        s.target.calls s.functions c := by
      intro c hc
      obtain ⟨w, hw, hu, -⟩ := hc
      refine Machine.invoke_congr (Machine.getElem?_functions_push h
        (Dictionary.lt_size_of_word? hw) none) fun hr => ?_
      exact Machine.callWithin_congr h
        (fun hroutine => Machine.getElem?_routines_push hroutine _) _ hw hu hr
    have hbody := Machine.callWithin_body hroutine rfl Machine.maxCallDepth (hl.trans harity)
    exact hbody.trans ((hrealises _ _ hlength).trans (congrFun (hf.meaning_congr hcalls) values))
  · rw [harity] at hl ⊢
    exact Machine.callWithin_count hroutine rfl Machine.maxCallDepth hl
  · cases ht : s.traces <;> simp [defined, ht]

namespace Accepted

theorem meaning_append (h : Accepted s s₁ name body draft) {values : List Value}
    (hl : values.length = draft.arguments.size) (before : String) :
    (draft.toDefinition name body).meaning (s.target.calls s.functions) values before =
      match (draft.toDefinition name body).meaning (s.target.calls s.functions) values "" with
      | .ok results text => .ok results (before ++ text)
      | .error e text => .error e (before ++ text) := by
  have happends := Machine.appends_callWithin s₁.target.routines (Machine.maxCallDepth + 1)
    s.target.routines.size values before ""
  rw [String.append_empty, h.computes values hl] at happends
  rw [happends]
  cases (draft.toDefinition name body).meaning (s.target.calls s.functions) values "" <;> rfl

theorem signature_eq (h : Accepted s s₁ name body draft) (hdict : s.dictionary.Sound) :
    s₁.signature name = .ok ⟨draft.flow.takes,
      (draft.flow.leaves.map (·.type draft.flow.takes)).reverse⟩ := by
  have hf : (draft.toDefinition name body).Sound s.dictionary.vocabulary :=
    sound_toDefinition hdict h.read
  have hsignature := hf.signature_eq
  rw [draft.flow_toDefinition] at hsignature
  rw [signature, h.word]
  exact hsignature

theorem observe_eq (h : Accepted s s₁ name body draft) (values : List Value) :
    s₁.target.observe s.target.routines.size values =
      if values.length = draft.arguments.size then
        ((draft.toDefinition name body).meaning (s.target.calls s.functions) values).attempt ""
      else (.error (.runtime (.argumentCount name values.length draft.arguments.size)), "") := by
  rw [Machine.observe_eq]
  by_cases hl : values.length = draft.arguments.size
  · rw [if_pos hl, h.computes values hl]
  · rw [if_neg hl, h.declines values hl]
    rfl

/-- Definitions with the same flow that mean the same cannot be told apart. -/
theorem indistinct {s₂ : Session Machine.target} {body₂ : List Token} {draft₂ : Draft}
    (h : Accepted s s₁ name body draft) (h₂ : Accepted s s₂ name body₂ draft₂)
    (hdict : s.dictionary.Sound) (hflow : draft.flow = draft₂.flow)
    (hmeaning : ∀ values, values.length = draft.arguments.size →
      (draft.toDefinition name body).meaning (s.target.calls s.functions) values =
        (draft₂.toDefinition name body₂).meaning (s.target.calls s.functions) values) :
    ∃ effect r, s₁.signature name = .ok effect ∧ s₂.signature name = .ok effect ∧
      s₁.functions[s.dictionary.size]? = some (some r) ∧
      s₂.functions[s.dictionary.size]? = some (some r) ∧
      ∀ arguments, s₁.target.observe r arguments = s₂.target.observe r arguments := by
  refine ⟨_, _, h.signature_eq hdict, hflow ▸ h₂.signature_eq hdict, h.function, h₂.function,
    fun arguments => ?_⟩
  have hsize : draft.arguments.size = draft₂.arguments.size := by
    rw [← draft.length_takes, ← draft₂.length_takes, hflow]
  rw [h.observe_eq, h₂.observe_eq, ← hsize]
  by_cases hl : arguments.length = draft.arguments.size
  · rw [if_pos hl, if_pos hl, hmeaning arguments hl]
  · rw [if_neg hl, if_neg hl]

/-- Definitions that mean the same where calls do not nest too deeply do the same there. -/
theorem observe_approximates {s' s₂ : Session Machine.target} {body₂ : List Token} {draft₂ : Draft}
    (h : Accepted s s₁ name body draft) (h₂ : Accepted s' s₂ name body₂ draft₂)
    (hsize : draft₂.arguments.size = draft.arguments.size)
    (happroximates : ∀ values, values.length = draft.arguments.size →
      ((draft.toDefinition name body).meaning (s.target.calls s.functions) values).Approximates
        ((draft₂.toDefinition name body₂).meaning (s'.target.calls s'.functions) values))
    (values : List Value) :
    (s₁.target.observe s.target.routines.size values).1 = .error (.runtime .callDepth) ∨
      s₂.target.observe s'.target.routines.size values =
        s₁.target.observe s.target.routines.size values := by
  rw [h.observe_eq, h₂.observe_eq, hsize]
  by_cases hl : values.length = draft.arguments.size
  · rw [if_pos hl, if_pos hl, Action.attempt, Action.attempt]
    rcases happroximates values hl "" with ⟨out, hdepth⟩ | heq
    · exact .inl (by rw [hdepth])
    · exact .inr (by rw [heq])
  · rw [if_neg hl, if_neg hl]
    exact .inr rfl

end Accepted

theorem exists_define (h : Machine.Linked s.dictionary s.target s.functions)
    (hread : readBody s.dictionary body {} = .ok () draft) (name : String) :
    ∃ s₁, define name body none s = .ok () s₁ := by
  have hf : (draft.toDefinition name body).Sound s.dictionary.vocabulary :=
    sound_toDefinition h.sound hread
  obtain ⟨r, m, hg⟩ := Machine.exists_generate h hf
  refine ⟨s.defined (draft.toDefinition name body) r m, ?_⟩
  rw [define_eq, hread]
  simp only [hg]

theorem define_iff (h : Machine.Linked s.dictionary s.target s.functions) (name : String) :
    (∃ s₁, define name body none s = .ok () s₁) ↔
      ∃ draft, readBody s.dictionary body {} = .ok () draft := by
  constructor
  · rintro ⟨s₁, hdefine⟩
    obtain ⟨draft, haccepted⟩ := accepted_of_define h hdefine
    exact ⟨draft, haccepted.read⟩
  · rintro ⟨draft, hread⟩
    exact exists_define h hread name

end Session
end StackEffect
