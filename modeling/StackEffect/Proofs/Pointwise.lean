import Mathlib.Data.List.Forall2

/-! Lists that are related item by item. -/
namespace StackEffect.Pointwise
variable {α β γ : Type} {R : α → β → Prop} {xs : List α} {ys : List β}

theorem getElem? (h : List.Forall₂ R xs ys) (i : Nat) :
    xs[i]? = none ∧ ys[i]? = none ∨ ∃ x y, xs[i]? = some x ∧ ys[i]? = some y ∧ R x y := by
  induction h generalizing i with
  | nil => exact .inl ⟨rfl, rfl⟩
  | cons hr _ ih =>
    cases i with
    | zero => exact .inr ⟨_, _, rfl, rfl, hr⟩
    | succ i => simpa using ih i

theorem right_of_left (h : List.Forall₂ R xs ys) {i : Nat} {x : α} (hx : xs[i]? = some x) :
    ∃ y, ys[i]? = some y ∧ R x y := by
  rcases getElem? h i with ⟨hn, -⟩ | ⟨x', y, hx', hy, hr⟩
  · simp [hx] at hn
  · cases hx.symm.trans hx'
    exact ⟨y, hy, hr⟩

theorem left_of_right (h : List.Forall₂ R xs ys) {i : Nat} {y : β} (hy : ys[i]? = some y) :
    ∃ x, xs[i]? = some x ∧ R x y := by
  rcases getElem? h i with ⟨-, hn⟩ | ⟨x, y', hx, hy', hr⟩
  · simp [hy] at hn
  · cases hy.symm.trans hy'
    exact ⟨x, hx, hr⟩

theorem with_mem (h : List.Forall₂ R xs ys) :
    List.Forall₂ (fun x y => x ∈ xs ∧ R x y) xs ys :=
  (List.forall₂_and_left xs ys).mpr ⟨fun _ hx => hx, h⟩

theorem symm (h : List.Forall₂ R xs ys) : List.Forall₂ (fun y x => R x y) ys xs :=
  List.Forall₂.flip h

theorem exists_of_forall (h : ∀ x ∈ xs, ∃ y, R x y) : ∃ ys, List.Forall₂ R xs ys := by
  induction xs with
  | nil => exact ⟨[], .nil⟩
  | cons x xs ih =>
    obtain ⟨y, hy⟩ := h x List.mem_cons_self
    obtain ⟨ys, hys⟩ := ih fun x' hx' => h x' (List.mem_cons_of_mem x hx')
    exact ⟨y :: ys, .cons hy hys⟩

theorem filterMap {f : α → Option β} (h : ∀ x ∈ xs, ∃ y, f x = some y) :
    List.Forall₂ (fun x y => f x = some y) xs (xs.filterMap f) := by
  induction xs with
  | nil => exact .nil
  | cons x xs ih =>
    obtain ⟨y, hy⟩ := h x List.mem_cons_self
    rw [List.filterMap_cons_some hy]
    exact .cons hy (ih fun x' hx' => h x' (List.mem_cons_of_mem x hx'))

theorem pick (h : List.Forall₂ R xs ys) (places : List Nat) :
    List.Forall₂ R (places.filterMap (xs[·]?)) (places.filterMap (ys[·]?)) := by
  induction places with
  | nil => exact .nil
  | cons i places ih =>
    rcases getElem? h i with ⟨hx, hy⟩ | ⟨x, y, hx, hy, hr⟩
    · rw [List.filterMap_cons_none hx, List.filterMap_cons_none hy]
      exact ih
    · rw [List.filterMap_cons_some hx, List.filterMap_cons_some hy]
      exact .cons hr ih

theorem comp {S : β → γ → Prop} {T : α → γ → Prop} {zs : List γ} (h : List.Forall₂ R xs ys)
    (h' : List.Forall₂ S ys zs) (hT : ∀ x y z, R x y → S y z → T x z) :
    List.Forall₂ T xs zs := by
  induction h generalizing zs with
  | nil => cases h'; exact .nil
  | cons hr _ ih =>
    cases h' with
    | cons hs h' => exact .cons (hT _ _ _ hr hs) (ih h')

theorem map_eq_map {f : α → γ} {g : β → γ} (h : List.Forall₂ (fun x y => f x = g y) xs ys) :
    xs.map f = ys.map g := by
  induction h with
  | nil => rfl
  | cons hxy _ ih => rw [List.map_cons, List.map_cons, hxy, ih]

theorem of_getElem? (h : ∀ (i : Nat) x, xs[i]? = some x → ∃ y, ys[i]? = some y ∧ R x y) :
    List.Forall₂ R xs (ys.take xs.length) := by
  induction xs generalizing ys with
  | nil => exact .nil
  | cons x xs ih =>
    obtain ⟨y, hy, hr⟩ := h 0 x rfl
    cases ys with
    | nil => cases hy
    | cons y' ys =>
      cases hy
      exact .cons hr (ih fun i x' hx' => h (i + 1) x' hx')

end StackEffect.Pointwise
