import StackEffect.Proofs.Machine.Acceptance
import StackEffect.Proofs.Session.Running

/-!
To mark a word inline spoils no definition that uses it (`define_marked`). A call hides the origins of
its results behind the types that are declared, so that all that can be read with the call can be read
with the body in its place (`Flow.Hides.along`). The body does what the call does, unless the call
nests too deeply (`Machine.approximates_calls`).
-/
namespace StackEffect

theorem NodeKind.leaves_call (inputs : List Source) (callee : Callee) :
    (NodeKind.call callee).leaves inputs = (callee.signature.outputs.map .made).reverse := by
  refine congrArg List.reverse (List.ext_getElem? fun index => ?_)
  by_cases h : index < callee.signature.outputs.length
  · simp [outputArity, Signature.outputArity, h, source, Graph.repeatedPlace?, origin]
  · simp [outputArity, Signature.outputArity, h]

/-- The flow of a call is that of the definition as far as the signature declares it. -/
theorem Operation.flow_call {V : Vocabulary} {g : Definition} (hg : g.Sound V) {s : Signature}
    (hs : g.signature = .ok s) (id : WordId) (name : String) :
    (call ⟨id, name, s⟩).flow = g.flow.declared := by
  cases hg.signature_eq.symm.trans hs
  rw [flow, NodeKind.leaves_call, List.map_reverse, List.reverse_reverse, List.map_map]
  rfl

/-- The operations are the same, or the first calls a definition that stands in its place in the
second. -/
def Operation.Opens (id : WordId) (name : String) (g : Definition) (op op' : Operation) : Prop :=
  op' = op ∨ ∃ s, g.signature = .ok s ∧ op = .call ⟨id, name, s⟩ ∧ op' = .splice g

theorem Operation.Opens.hides {V : Vocabulary} {id : WordId} {name : String} {g : Definition}
    {op op' : Operation} (h : op.Opens id name g op') (hg : g.Sound V) :
    op.flow.Hides op'.flow := by
  rcases h with rfl | ⟨s, hs, rfl, rfl⟩
  · exact .refl _
  · rw [flow_call hg hs]
    exact hg.valid_flow.hides_declared

namespace Machine
variable {d : Dictionary} {m : Machine} {functions : FunctionTable Machine.target}

/-- A call of a definition does what the definition means, unless it nests too deeply. -/
theorem approximates_calls (h : Linked d m functions) {id : WordId} {w : Word} {g : Definition}
    {s : Signature} (hw : d.word? id = some w) (hk : w.kind = .compiled g)
    (hs : g.signature = .ok s) {values : List Value} (hl : values.length = s.inputArity) :
    (m.calls functions ⟨id, w.name, s⟩ values).Approximates (g.meaning (m.calls functions) values) := by
  have hu : w.isUser = true := Word.isUser_iff.mpr (.inr ⟨g, hk⟩)
  obtain ⟨r, routine, hr, hroutine, hsignature, hbody⟩ := h.exists_routine hw hu
  obtain ⟨_, hk', -⟩ | ⟨g', b, hk', hbody, hrealises⟩ := hbody
  · cases hk.symm.trans hk'
  cases hk.symm.trans hk'
  cases ((Word.signature_of_compiled hk).trans hs).symm.trans hsignature
  have hg := h.sound.compiled hw hk
  have hinputs : values.length = g.arguments.length := by
    rw [hl, Signature.inputArity, (Definition.signature_eq_ok.mp hs).1.length_eq]
  -- One level deeper the call runs the body with the calls of the body.
  have happroximates := approximates_callWithin m.routines maxCallDepth r values
  rw [callWithin_body hroutine hbody maxCallDepth hl, hrealises _ _ hinputs] at happroximates
  have hcounted := hg.counted_meaning
    (counted_invoke functions (callWithin m.routines maxCallDepth)) hinputs
  have hcalls : m.calls functions ⟨id, w.name, routine.signature⟩ values = (do
      let results ← callWithin m.routines maxCallDepth r values
      if results.length = routine.signature.outputArity then return results
      else throw (.runtime (.resultCount r results.length routine.signature.outputArity))) := by
    simp only [calls, invoke, hr, Option.join_some]
  rw [hcalls]
  intro out
  rcases happroximates out with ⟨out', hdepth⟩ | heq
  · exact .inl ⟨out', Action.bind_of_error hdepth _⟩
  · refine .inr (heq.trans ?_)
    have hresults := hcounted out
    rw [heq] at hresults
    cases hcall : callWithin m.routines maxCallDepth r values out with
    | error e out' => rw [Action.bind_of_error hcall]
    | ok results out' =>
      rw [hcall] at hresults
      have hl' : results.length = routine.signature.outputArity :=
        hresults.trans (Definition.signature_eq_ok.mp hs).2.length_eq
      rw [Action.bind_of_ok hcall, if_pos hl']
      rfl

theorem approximates_opens (h : Linked d m functions) {id : WordId} {w : Word} {g : Definition}
    (hw : d.word? id = some w) (hk : w.kind = .compiled g) {op op' : Operation}
    (ho : op.Opens id w.name g op') {values : List Value} (hl : values.length = op.demands.length)
    (rest : List Value) : (op.effect (m.calls functions) (values ++ rest)).Approximates
      (op'.effect (m.calls functions) (values ++ rest)) := by
  rcases ho with rfl | ⟨s, hs, rfl, rfl⟩
  · exact .refl _
  · have hl' : values.length = (Operation.splice g).demands.length := by
      rw [Operation.demands_splice hs]
      exact hl
    rw [Operation.effect_append hl, Operation.effect_append hl']
    exact .bind (approximates_calls h hw hk hs hl) fun _ => .refl _

end Machine

namespace Session

theorem named_setInline (d : Dictionary) (id : WordId) (mark : Bool) (t : Token) :
    named (d.setInline id mark) t = (named d t).map fun x =>
      (x.1, if x.1 = id then { x.2 with isInline := mark } else x.2) := by
  unfold named
  by_cases h : isString t = true
  · rw [if_pos h, if_pos h, Option.map_none]
  · rw [if_neg h, if_neg h, Dictionary.lookup_setInline]

section Mark
variable {d : Dictionary} {id : WordId} {w : Word} {g : Definition}

theorem operation_setInline (hw : d.word? id = some w) (hk : w.kind = .compiled g) {t : Token}
    {op : Operation} (h : operation (d.setInline id false) t = .ok op) :
    ∃ op', operation (d.setInline id true) t = .ok op' ∧ op.Opens id w.name g op' := by
  unfold operation at h ⊢
  rw [named_setInline] at h ⊢
  cases hn : named d t with
  | none =>
    rw [hn] at h
    exact ⟨op, h, .inl rfl⟩
  | some x =>
    obtain ⟨i, v⟩ := x
    simp only [hn, Option.map_some] at h ⊢
    by_cases hi : i = id
    · subst hi
      cases hw.symm.trans (word?_of_named hn)
      rw [if_pos rfl] at h ⊢
      obtain ⟨name, kind, inline, hidden⟩ := v
      obtain rfl : kind = .compiled g := hk
      obtain ⟨s, hs, h⟩ := Except.bind_eq_ok.mp h
      cases h
      exact ⟨_, rfl, .inr ⟨s, hs, rfl, rfl⟩⟩
    · rw [if_neg hi] at h ⊢
      exact ⟨op, h, .inl rfl⟩

theorem operations_setInline (hw : d.word? id = some w) (hk : w.kind = .compiled g)
    {tokens : List Token} {ops : List Operation}
    (h : tokens.mapM (operation (d.setInline id false)) = .ok ops) :
    ∃ ops', tokens.mapM (operation (d.setInline id true)) = .ok ops' ∧
      List.Forall₂ (Operation.Opens id w.name g) ops ops' := by
  induction tokens generalizing ops with
  | nil =>
    cases h
    exact ⟨[], rfl, .nil⟩
  | cons t tokens ih =>
    obtain ⟨op, rest, hop, hrest, rfl⟩ := Except.mapM_cons_eq_ok.mp h
    obtain ⟨op', hop', hopens⟩ := operation_setInline hw hk hop
    obtain ⟨rest', hrest', hall⟩ := ih hrest
    exact ⟨op' :: rest', Except.mapM_cons_eq_ok.mpr ⟨op', rest', hop', hrest', rfl⟩,
      .cons hopens hall⟩

end Mark

/-- The session in which a word is or is not inline, all else being equal. -/
def withInline {T : Target} (s : Session T) (id : WordId) (isInline : Bool) : Session T :=
  { s with dictionary := s.dictionary.setInline id isInline }

theorem withInline_self {T : Target} {s : Session T} {id : WordId} {w : Word}
    (hw : s.dictionary.word? id = some w) : s.withInline id w.isInline = s := by
  rw [withInline, Dictionary.setInline_self hw]

variable {S : Session Machine.target}

/-- To mark a definition inline spoils none that uses it: a definition that is accepted with calls of
`g` is accepted with `g` in their place. It takes values of the same types, leaves values of the same
or more definite types, and its function answers and prints the same, unless calls of `g` would nest
too deeply. -/
theorem define_marked (h : Reachable ({} : Machine) S) {id : WordId} {w : Word} {g : Definition}
    (hw : S.dictionary.word? id = some w) (hk : w.kind = .compiled g) (caller : String)
    (body : List Token) {S₁ : Session Machine.target}
    (hdefine : define caller body none (S.withInline id false) = .ok () S₁) :
    ∃ S₂ inputs outputs₁ outputs₂ r,
      define caller body none (S.withInline id true) = .ok () S₂ ∧
      S₁.signature caller = .ok ⟨inputs, outputs₁⟩ ∧ S₂.signature caller = .ok ⟨inputs, outputs₂⟩ ∧
      List.Forall₂ (fun type type' => type' = type ∨ type = .any) outputs₁ outputs₂ ∧
      S₁.functions[S.dictionary.size]? = some (some r) ∧
      S₂.functions[S.dictionary.size]? = some (some r) ∧
      ∀ arguments, (S₁.target.observe r arguments).1 = .error (.runtime .callDepth) ∨
        S₂.target.observe r arguments = S₁.target.observe r arguments := by
  have hlinked₁ := h.linked.setInline id false
  have hlinked₂ := h.linked.setInline id true
  obtain ⟨draft₁, accepted₁⟩ := accepted_of_define hlinked₁ hdefine
  obtain ⟨ops, hops, hread₁⟩ := readTokens_eq_ok.mp accepted₁.read
  obtain ⟨ops', hops', hopens⟩ := operations_setInline hw hk hops
  have hsound₁ := sound_operations hlinked₁.sound hops
  have hsound₂ := sound_operations hlinked₂.sound hops'
  have hg := h.sound.compiled hw hk
  -- What is read with calls is read with the definition in their place.
  have hflow₁ := (Operation.readAll_iff hsound₁).mp ⟨draft₁, hread₁, rfl⟩
  obtain ⟨F, hflow₂, hhides⟩ := (Flow.Hides.refl {}).along Flow.valid_empty
    (hopens.imp fun op op' ho => ho.hides hg) hsound₂ hflow₁
  obtain ⟨draft₂, hread₂, rfl⟩ := (Operation.readAll_iff hsound₂).mpr hflow₂
  have hread : readBody (S.withInline id true).dictionary body {} = .ok () draft₂ :=
    readTokens_eq_ok.mpr ⟨ops', hops', hread₂⟩
  obtain ⟨S₂, hdefine₂⟩ := exists_define hlinked₂ hread caller
  obtain ⟨draft, accepted₂⟩ := accepted_of_define hlinked₂ hdefine₂
  cases hread.symm.trans accepted₂.read
  have hsignature₂ := accepted₂.signature_eq hlinked₂.sound
  rw [← hhides.takes] at hsignature₂
  have hsize : draft₂.arguments.size = draft₁.arguments.size := by
    rw [← draft₁.length_takes, ← draft₂.length_takes, hhides.takes]
  have hobserve := accepted₁.observe_approximates accepted₂ hsize fun values hl =>
    Operation.approximates_meaning hsound₁ hsound₂ (Machine.counted_invoke _ _) hread₁ hread₂ hsize hl
      (hopens.imp fun op op' ho values rest hl =>
        Machine.approximates_opens h.linked hw hk ho hl rest) caller body
  have hroom : ∀ mark, (S.withInline id mark).dictionary.size = S.dictionary.size :=
    fun mark => Dictionary.size_modify ..
  exact ⟨S₂, _, _, _, _, hdefine₂, accepted₁.signature_eq hlinked₁.sound, hsignature₂,
    List.forall₂_reverse_iff.mpr hhides.leftTypes, hroom false ▸ accepted₁.function,
    hroom true ▸ accepted₂.function, hobserve⟩

def echoing : Session Machine.target := ofText ": same dup drop ;"

def echo : List Token :=
  [{ text := "1", literal := some (.int 1), place := {} }, wordToken "same"]

/-- Only where the definition is inline the result is known to be a number. -/
theorem define_marked_echo :
    executeDirective .markInline echoing = .ok () (echoing.withInline 23 true) ∧
    ∃ S₁ S₂ r, define "caller" echo none echoing = .ok () S₁ ∧
      define "caller" echo none (echoing.withInline 23 true) = .ok () S₂ ∧
      S₁.signature "caller" = .ok ⟨[], [.any]⟩ ∧ S₂.signature "caller" = .ok ⟨[], [.int32]⟩ ∧
      S₁.functions[24]? = some (some r) ∧ S₂.functions[24]? = some (some r) ∧
      ∀ arguments, (S₁.target.observe r arguments).1 = .error (.runtime .callDepth) ∨
        S₂.target.observe r arguments = S₁.target.observe r arguments := by
  have hreachable : Reachable ({} : Machine) echoing := reachable_ofText _
  have hlatest : echoing.dictionary.latestDefinition = some 23 := by decide +kernel
  obtain ⟨w, g, hw, -, hk⟩ := Dictionary.latestDefinition_eq_some hlatest
  have hmark : (echoing.dictionary.word? 23).map Word.isInline = some false := by decide +kernel
  rw [hw] at hmark
  have hplain := withInline_self hw
  rw [Option.some.inj hmark] at hplain
  obtain ⟨S₁, hdefine₁, hsignature₁⟩ : ∃ S₁, define "caller" echo none echoing = .ok () S₁ ∧
      S₁.signature "caller" = .ok ⟨[], [.any]⟩ :=
    ⟨_, Action.attempt_eq_ok.mp (by decide +kernel), by decide +kernel⟩
  obtain ⟨S₂, hdefine₂, hsignature₂⟩ : ∃ S₂,
      define "caller" echo none (echoing.withInline 23 true) = .ok () S₂ ∧
      S₂.signature "caller" = .ok ⟨[], [.int32]⟩ :=
    ⟨_, Action.attempt_eq_ok.mp (by decide +kernel), by decide +kernel⟩
  have hcalling : define "caller" echo none (echoing.withInline 23 false) = .ok () S₁ := by
    rw [hplain, hdefine₁]
  have hsize : echoing.dictionary.size = 24 := by decide +kernel
  obtain ⟨S, inputs, outputs₁, outputs₂, r, hmarked, -, -, -, hf₁, hf₂, hobserve⟩ :=
    define_marked hreachable hw hk "caller" echo hcalling
  cases hdefine₂.symm.trans hmarked
  rw [hsize] at hf₁ hf₂
  refine ⟨?_, S₁, S₂, r, hdefine₁, hdefine₂, hsignature₁, hsignature₂, hf₁, hf₂, hobserve⟩
  simp only [executeDirective, Action.bind_apply, Action.get_apply, hlatest]
  rfl

end Session
end StackEffect
