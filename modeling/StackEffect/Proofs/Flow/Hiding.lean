import StackEffect.Proofs.Flow.Composition

/-!
Origins behind declared types. A call tells no more of its results than their types, while a body in
the place of the call shows where they come from. Whatever can follow the call can follow the body
(`Flow.Hides.andThen`).
-/
namespace StackEffect

/-- `s` is the source `t`, or it tells no more of it than a type. -/
def Source.Hides (takes : List ValueType) (s t : Source) : Prop :=
  s = t ∨ ∃ type, s = made type ∧ t.Within takes.length ∧
    ValueType.compatible type (t.type takes) = true

namespace Source.Hides
variable {s t : Source} {takes takes' : List ValueType} {required : ValueType}

theorem settle (h : s.Hides takes t) (hl : takes.length ≤ takes'.length)
    (hsettles : Source.Settles takes takes') : s.Hides takes' t := by
  rcases h with rfl | ⟨type, rfl, hwithin, hc⟩
  · exact .inl rfl
  · exact .inr ⟨type, rfl, hwithin.mono hl, hsettles t type hc⟩

theorem accept (h : s.Hides takes t) (hs : s.accept required takes = some takes') :
    t.accept required takes = some takes' := by
  rcases h with rfl | ⟨type, rfl, hwithin, hc⟩
  · exact hs
  · obtain ⟨hr, rfl⟩ := Source.accept_made_eq_some.mp hs
    exact Source.accept_of_compatible hwithin (ValueType.compatible_trans hr hc)

theorem type_compatible (h : s.Hides takes t) :
    ValueType.compatible (s.type takes) (t.type takes) = true := by
  rcases h with rfl | ⟨type, rfl, -, hc⟩
  · exact ValueType.compatible_self _
  · exact hc

end Source.Hides

namespace Flow
variable {F F' G E D : Flow} {s : Source} {required : ValueType} {types : List ValueType}
  {sources : List Source}

/-- The flows take the same; of what is left the first may tell no more than types. -/
structure Hides (F G : Flow) : Prop where
  takes : F.takes = G.takes
  leaves : List.Forall₂ (Source.Hides G.takes) F.leaves G.leaves

theorem Hides.refl (F : Flow) : F.Hides F := ⟨rfl, List.forall₂_same.mpr fun _ _ => .inl rfl⟩

/-- The flow as its signature declares it. -/
def declared (F : Flow) : Flow := { F with leaves := F.leaves.map fun s => .made (s.type F.takes) }

theorem Valid.hides_declared (hF : F.Valid) : F.declared.Hides F :=
  ⟨rfl, List.forall₂_map_left_iff.mpr <| List.forall₂_same.mpr fun s hs =>
    .inr ⟨_, rfl, hF s hs, ValueType.compatible_self _⟩⟩

theorem Hides.leftTypes (h : F.Hides G) : List.Forall₂ (fun type type' => type' = type ∨ type = .any)
    (F.leaves.map (·.type F.takes)) (G.leaves.map (·.type F.takes)) := by
  refine List.forall₂_map_left_iff.mpr (List.forall₂_map_right_iff.mpr (h.leaves.imp fun s t hst => ?_))
  rw [← h.takes] at hst
  exact (ValueType.compatible_iff.mp hst.type_compatible).imp_left Eq.symm

theorem Hides.settle {takes : List ValueType} {ss ts : List Source}
    (h : List.Forall₂ (Source.Hides F.takes) ss ts) (hl : F.takes.length ≤ takes.length)
    (hsettles : Source.Settles F.takes takes) : List.Forall₂ (Source.Hides takes) ss ts :=
  h.imp fun _ _ hs => hs.settle hl hsettles

theorem Hides.pop (h : F.Hides G) (hG : G.Valid) (hp : F.pop required = some (s, F')) :
    ∃ t G', G.pop required = some (t, G') ∧ F'.Hides G' ∧ s.Hides G'.takes t := by
  obtain ⟨takes, leaves⟩ := F
  obtain ⟨rfl, hleaves⟩ : takes = G.takes ∧ List.Forall₂ (Source.Hides G.takes) leaves G.leaves :=
    ⟨h.takes, h.leaves⟩
  cases hl : G.leaves with
  | nil =>
    rw [hl] at hleaves
    cases hleaves
    cases hp
    exact ⟨_, _, pop_of_nil hl required, ⟨rfl, by rw [hl]; exact .nil⟩, .inl rfl⟩
  | cons t rest =>
    rw [hl] at hleaves
    cases hleaves with
    | @cons s' _ rest' _ hst hrest =>
      obtain ⟨takes', ha, hp⟩ := Option.map_eq_some_iff.mp hp
      cases hp
      have ht := hst.accept ha
      have hpopped : G.pop required = some (t, ⟨takes', rest⟩) := by rw [pop_of_cons hl, ht]; rfl
      have hknown := hG.pop hpopped
      refine ⟨t, _, hpopped, ⟨rfl, Hides.settle hrest hknown.length_le hknown.settles⟩, ?_⟩
      exact hst.settle hknown.length_le hknown.settles

theorem Hides.popAll (h : F.Hides G) (hG : G.Valid) (hp : F.popAll types = some (sources, F')) :
    ∃ origins G', G.popAll types = some (origins, G') ∧ F'.Hides G' ∧
      List.Forall₂ (Source.Hides G'.takes) sources origins := by
  induction types generalizing F G sources with
  | nil =>
    cases hp
    exact ⟨[], G, rfl, h, .nil⟩
  | cons type types ih =>
    rw [popAll_cons] at hp
    obtain ⟨⟨s, F₁⟩, h₁, hp⟩ := Option.bind_eq_some_iff.mp hp
    obtain ⟨⟨ss, F₂⟩, h₂, hp⟩ := Option.map_eq_some_iff.mp hp
    cases hp
    obtain ⟨t, G₁, hpop, hhides, hst⟩ := h.pop hG h₁
    have hG₁ := (hG.pop hpop).valid
    obtain ⟨ts, G₂, hpopAll, hhides₂, hsts⟩ := ih hhides hG₁ h₂
    have hknown := hG₁.popAll hpopAll
    refine ⟨t :: ts, G₂, ?_, hhides₂, .cons (hst.settle hknown.length_le hknown.settles) hsts⟩
    rw [popAll_cons, hpop, Option.bind_some, hpopAll]
    rfl

theorem Hides.via {takes : List ValueType} {ss ts : List Source}
    (h : List.Forall₂ (Source.Hides takes) ss ts) (s : Source) :
    (s.via ss).Hides takes (s.via ts) := by
  cases s with
  | made type => exact .inl rfl
  | taken index =>
    rcases Pointwise.getElem? h index with ⟨hs, ht⟩ | ⟨u, v, hs, ht, huv⟩
    · exact .inl (by simp [Source.via, hs, ht])
    · simpa [Source.via, hs, ht] using huv

/-- Who sees the origins of values can do what can be done by their types alone. -/
theorem Hides.andThen (h : F.Hides G) (hG : G.Valid) (hE : E.Hides D) (hD : D.Valid)
    (hp : F.andThen E = some F') : ∃ G', G.andThen D = some G' ∧ F'.Hides G' := by
  obtain ⟨⟨ss, F₁⟩, h₁, rfl⟩ := Option.map_eq_some_iff.mp hp
  rw [hE.takes] at h₁
  obtain ⟨ts, G₁, hpopAll, hhides, hsts⟩ := h.popAll hG h₁
  have hknown := hG.popAll hpopAll
  refine ⟨D.onto ts G₁, by rw [Flow.andThen, hpopAll]; rfl, hhides.takes, ?_⟩
  refine List.rel_append (List.forall₂_map_left_iff.mpr (List.forall₂_map_right_iff.mpr ?_))
    hhides.leaves
  refine (Pointwise.symm (Pointwise.with_mem (Pointwise.symm hE.leaves))).imp fun s t hboth => ?_
  obtain ⟨hmem, rfl | ⟨type, rfl, -, hc⟩⟩ := hboth
  · exact Hides.via hsts s
  · obtain ⟨hwithin, hc'⟩ := hknown.via (hD t hmem)
    exact .inr ⟨type, rfl, hwithin, ValueType.compatible_trans hc hc'⟩

end Flow
end StackEffect
