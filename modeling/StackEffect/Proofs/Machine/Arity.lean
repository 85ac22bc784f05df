import StackEffect.Proofs.Flow.Arity
import StackEffect.Proofs.Machine.Acceptance
import StackEffect.Proofs.Session.Valued

/-!
The arities of a body and of its parts. A body that is accepted may be cut anywhere: both parts are
accepted by themselves, and the arities of the whole are those of the parts one after the other
(`define_append`).
-/
namespace StackEffect

theorem Flow.along_of_andThen {V : Vocabulary} {X F G : Flow} {ops : List Operation} (hX : X.Valid)
    (hF : F.Valid) (hops : ∀ op ∈ ops, op.Sound V) (hvalued : ∀ op ∈ ops, op.flow.Valued)
    (h : (X.andThen F).bind (·.along ops) = some G) : ∃ H, F.along ops = some H := by
  induction ops generalizing F with
  | nil => exact ⟨F, rfl⟩
  | cons op ops ih =>
    obtain ⟨hop, hops⟩ := List.forall_mem_cons.mp hops
    obtain ⟨hvalue, hvalued⟩ := List.forall_mem_cons.mp hvalued
    obtain ⟨Y, hY, h⟩ := Option.bind_eq_some_iff.mp h
    rw [along_cons] at h
    obtain ⟨Y₁, hY₁, h⟩ := Option.bind_eq_some_iff.mp h
    obtain ⟨F₁, hF₁⟩ := andThen_of_andThen hX hF hvalue.takes
      (Option.bind_eq_some_iff.mpr ⟨Y, hY, hY₁⟩)
    have hsame := andThen_assoc hX hF hop.valid_flow hF₁
    rw [hY, Option.bind_some, hY₁] at hsame
    obtain ⟨H, hH⟩ := ih (hF.andThen hop.valid_flow hF₁) hops hvalued
      (Option.bind_eq_some_iff.mpr ⟨Y₁, hsame.symm, h⟩)
    exact ⟨H, by rw [along_cons, hF₁, Option.bind_some, hH]⟩

/-- The parts of a body have flows, and one after the other they have the flow of the body. -/
theorem Flow.exists_of_along_append {V : Vocabulary} {before after : List Operation} {F : Flow}
    (hbefore : ∀ op ∈ before, op.Sound V) (hafter : ∀ op ∈ after, op.Sound V)
    (hvalued : ∀ op ∈ after, op.flow.Valued) (h : ({} : Flow).along (before ++ after) = some F) :
    ∃ G H, ({} : Flow).along before = some G ∧ ({} : Flow).along after = some H ∧
      G.andThen H = some F := by
  rw [along_append] at h
  obtain ⟨G, hG, h⟩ := Option.bind_eq_some_iff.mp h
  have hvalid := valid_empty.along hbefore hG
  have hstart : (G.andThen {}).bind (·.along after) = some F := by
    rw [andThen_empty, Option.bind_some, h]
  obtain ⟨H, hH⟩ := along_of_andThen hvalid valid_empty hafter hvalued hstart
  exact ⟨G, H, hG, hH, (andThen_along hvalid valid_empty hafter hH).symm.trans hstart⟩

namespace Session
variable {s s₁ : Session Machine.target}

/-- Both parts of a body that is accepted are accepted by themselves. The whole takes what the second
part does not find when the first is through, and leaves what the second does not take. -/
theorem define_append (h : Reachable ({} : Machine) s) {f : String} {a b : List Token}
    (hf : define f (a ++ b) none s = .ok () s₁) (g k : String) :
    ∃ s₂ s₃ F G K, define g a none s = .ok () s₂ ∧ define k b none s = .ok () s₃ ∧
      s₁.signature f = .ok F ∧ s₂.signature g = .ok G ∧ s₃.signature k = .ok K ∧
      F.inputArity = G.inputArity + (K.inputArity - G.outputArity) ∧
      F.outputArity = K.outputArity + (G.outputArity - K.inputArity) := by
  have hlinked := h.linked
  have hdict := hlinked.sound
  obtain ⟨draft, accepted⟩ := accepted_of_define hlinked hf
  obtain ⟨ops, hops, halong⟩ := (readBody_iff hdict).mp ⟨draft, accepted.read, rfl⟩
  obtain ⟨before, after, hbefore, hafter, rfl⟩ := Except.mapM_append_eq_ok.mp hops
  obtain ⟨G, K, hG, hK, hthen⟩ := Flow.exists_of_along_append (sound_operations hdict hbefore)
    (sound_operations hdict hafter) (valued_operations hdict h.valued hafter) halong
  obtain ⟨draftA, hreadA, rfl⟩ := (readBody_iff hdict).mpr ⟨before, hbefore, hG⟩
  obtain ⟨draftB, hreadB, rfl⟩ := (readBody_iff hdict).mpr ⟨after, hafter, hK⟩
  obtain ⟨s₂, hg⟩ := exists_define hlinked hreadA g
  obtain ⟨s₃, hk⟩ := exists_define hlinked hreadB k
  obtain ⟨draftA', acceptedA⟩ := accepted_of_define hlinked hg
  obtain ⟨draftB', acceptedB⟩ := accepted_of_define hlinked hk
  cases hreadA.symm.trans acceptedA.read
  cases hreadB.symm.trans acceptedB.read
  refine ⟨s₂, s₃, _, _, _, hg, hk, accepted.signature_eq hdict, acceptedA.signature_eq hdict,
    acceptedB.signature_eq hdict, ?_⟩
  obtain ⟨htakes, hleaves⟩ := Flow.length_andThen hthen
  simp only [Signature.inputArity, Signature.outputArity, List.length_reverse, List.length_map]
  exact ⟨htakes, hleaves⟩

def cutting : Session Machine.target :=
  ofText "extern print-int ( i -- ) : sq dup * ; inline : add + ;"

theorem define_append_cutting :
    let a := ["sq", "add"].map wordToken
    let b := ["over", "-", "print-int"].map wordToken
    ∃ s₁ s₂ s₃ F G K, define "f" (a ++ b) none cutting = .ok () s₁ ∧
      define "g" a none cutting = .ok () s₂ ∧ define "k" b none cutting = .ok () s₃ ∧
      s₁.signature "f" = .ok F ∧ s₂.signature "g" = .ok G ∧ s₃.signature "k" = .ok K ∧
      F.inputArity = G.inputArity + (K.inputArity - G.outputArity) ∧
      F.outputArity = K.outputArity + (G.outputArity - K.inputArity) := by
  intro a b
  have hdefine : define "f" (a ++ b) none cutting = .ok () _ :=
    Action.attempt_eq_ok.mp (by decide +kernel)
  obtain ⟨s₂, s₃, F, G, K, hrest⟩ := define_append (reachable_ofText _) hdefine "g" "k"
  exact ⟨_, s₂, s₃, F, G, K, hdefine, hrest⟩

end Session
end StackEffect
