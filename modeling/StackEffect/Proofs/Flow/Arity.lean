import StackEffect.Proofs.Flow.Composition

/-!
How many values a body takes and leaves. Of two parts in a row the second takes first what the first
has left, and only then more from the caller (`length_andThen`). What can follow the first part where
something stands for its arguments can follow it by itself (`andThen_of_andThen`), since a use asks no
more of an argument than of what stands for it.
-/
namespace StackEffect

theorem Source.exists_accept {s : Source} {takes types : List ValueType} {sources : List Source}
    {required : ValueType} (hs : s.Within types.length)
    (hsources : List.Forall₂ (fun type s => ValueType.compatible type (s.type takes) = true) types
      sources) (hr : required ≠ .null) (h : ((s.via sources).accept required takes).isSome = true) :
    (s.accept required types).isSome = true := by
  cases s with
  | made type =>
    obtain ⟨takes', ht⟩ := Option.isSome_iff_exists.mp h
    rw [accept_made, if_pos (accept_made_eq_some.mp ht).1]
    rfl
  | taken index =>
    have hlt : index < types.length := hs
    have hget := List.getElem?_eq_getElem hlt
    obtain ⟨t, ht, hc⟩ := Pointwise.right_of_left hsources hget
    obtain ⟨takes', haccept⟩ := Option.isSome_iff_exists.mp h
    rw [via, ht, Option.getD_some] at haccept
    rw [accept_taken hget, Option.isSome_map]
    -- Either the type of the argument is open, or what stands for it has the same type.
    by_cases hopen : types[index] = .any
    · rw [hopen]
      by_cases hany : required = .any
      · rw [hany]
        rfl
      · rw [ValueType.meet?_of_concrete (by cases required <;> first | contradiction | rfl)]
        rfl
    · have htype : t.type takes = types[index] :=
        ((ValueType.compatible_iff.mp hc).resolve_right hopen).symm
      have hcompatible : ValueType.compatible required types[index] = true := by
        by_contra hne
        have hnone := accept_eq_none (htype ▸ hne) fun i hi hti => by
          rw [hi, type, hti, Option.getD_some] at htype
          exact absurd htype.symm hopen
        rw [hnone] at haccept
        cases haccept
      rw [ValueType.meet?_of_compatible hcompatible]
      rfl

namespace Flow
variable {F G E X : Flow} {sources : List Source} {required : ValueType} {types : List ValueType}

/-! ### Parts by themselves -/

theorem exists_pop_of_onto (hX : X.Valid) (hE : E.Valid) (hr : required ≠ .null)
    (hp : X.popAll E.takes = some (sources, G)) (h : ((E.onto sources G).pop required).isSome = true) :
    ∃ x, E.pop required = some x := by
  cases hl : E.leaves with
  | nil => exact ⟨_, pop_of_nil hl required⟩
  | cons s rest =>
    have honto : (E.onto sources G).leaves =
        s.via sources :: (rest.map (Source.via sources) ++ G.leaves) := by simp [onto, hl]
    rw [pop_of_cons honto, Option.isSome_map] at h
    have hs : s.Within E.takes.length := hE s (hl ▸ List.mem_cons_self)
    obtain ⟨takes, ht⟩ := Option.isSome_iff_exists.mp
      (Source.exists_accept hs (hX.popAll hp).compatible hr h)
    exact ⟨_, by rw [pop_of_cons hl, ht]; rfl⟩

theorem exists_popAll_of_onto (hX : X.Valid) (hE : E.Valid) (htypes : .null ∉ types)
    (hp : X.popAll E.takes = some (sources, G))
    (h : ((E.onto sources G).popAll types).isSome = true) : ∃ x, E.popAll types = some x := by
  induction types generalizing E sources G with
  | nil => exact ⟨_, rfl⟩
  | cons type types ih =>
    obtain ⟨htype, htypes⟩ := List.ne_and_not_mem_of_not_mem_cons htypes
    obtain ⟨y, hy⟩ := Option.isSome_iff_exists.mp h
    rw [popAll_cons] at hy
    obtain ⟨⟨t, H⟩, hpop, hy⟩ := Option.bind_eq_some_iff.mp hy
    obtain ⟨z, hrest, -⟩ := Option.map_eq_some_iff.mp hy
    obtain ⟨⟨s, E₁⟩, h₁⟩ := exists_pop_of_onto hX hE htype.symm hp (by rw [hpop]; rfl)
    -- What is left is what the rest of the part leaves, with the same values for its arguments.
    have hstep := pop_onto hX hE h₁
    rw [hp, Option.bind_some, hpop, Option.map_some] at hstep
    obtain ⟨⟨sources₁, G₁⟩, hp₁, heq⟩ := Option.map_eq_some_iff.mp hstep.symm
    have hH : E₁.onto sources₁ G₁ = H := congrArg (fun x => x.2.2) heq
    obtain ⟨x, hx⟩ := ih (hE.pop h₁).valid htypes hp₁ (by rw [hH, hrest]; rfl)
    exact ⟨_, by rw [popAll_cons, h₁, Option.bind_some, hx]; rfl⟩

/-- What can follow a part in a body can follow the part by itself. -/
theorem andThen_of_andThen (hX : X.Valid) (hF : F.Valid) (hE : .null ∉ E.takes)
    (h : (X.andThen F).bind (·.andThen E) = some G) : ∃ H, F.andThen E = some H := by
  obtain ⟨Y, hY, h⟩ := Option.bind_eq_some_iff.mp h
  obtain ⟨⟨sources, X'⟩, hp, rfl⟩ := Option.map_eq_some_iff.mp hY
  obtain ⟨y, hy, -⟩ := Option.map_eq_some_iff.mp h
  obtain ⟨x, hx⟩ := exists_popAll_of_onto hX hF hE hp (by rw [hy]; rfl)
  exact ⟨_, by rw [andThen, hx]; rfl⟩

/-! ### Counting values -/

theorem length_pop {s : Source} (h : F.pop required = some (s, G)) :
    G.takes.length = F.takes.length + (1 - F.leaves.length) ∧
      G.leaves.length = F.leaves.length - 1 := by
  cases hl : F.leaves with
  | nil =>
    rw [pop_of_nil hl] at h
    cases h
    simp [hl]
  | cons t rest =>
    rw [pop_of_cons hl] at h
    obtain ⟨takes, ht, h⟩ := Option.map_eq_some_iff.mp h
    cases h
    simp [Source.length_accept ht]

theorem length_takes_popAll (h : F.popAll types = some (sources, G)) :
    G.takes.length = F.takes.length + (types.length - F.leaves.length) ∧
      G.leaves.length = F.leaves.length - types.length := by
  induction types generalizing F sources with
  | nil =>
    cases h
    simp
  | cons type types ih =>
    rw [popAll_cons] at h
    obtain ⟨⟨s, F₁⟩, h₁, h⟩ := Option.bind_eq_some_iff.mp h
    obtain ⟨⟨ss, F₂⟩, h₂, h⟩ := Option.map_eq_some_iff.mp h
    cases h
    have hfirst := length_pop h₁
    have hrest := ih (F := F₁) h₂
    rw [List.length_cons]
    omega

/-- Two parts in a row take what the second does not find, and leave what the second does not take. -/
theorem length_andThen (h : F.andThen E = some G) :
    G.takes.length = F.takes.length + (E.takes.length - F.leaves.length) ∧
      G.leaves.length = E.leaves.length + (F.leaves.length - E.takes.length) := by
  obtain ⟨⟨sources, H⟩, hp, rfl⟩ := Option.map_eq_some_iff.mp h
  obtain ⟨htakes, hleaves⟩ := length_takes_popAll hp
  refine ⟨htakes, ?_⟩
  rw [onto, List.length_append, List.length_map, hleaves]

end Flow
end StackEffect
