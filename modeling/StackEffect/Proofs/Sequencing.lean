import Mathlib.Data.List.Forall2
import StackEffect.Action

/-!
Actions one after the other. A sequence succeeds when each of its parts does and fails with the
first part that fails (`bind_eq_ok`, `bind_eq_error`); a loop over a list relates the list to its
results item by item.
-/
namespace StackEffect

theorem Except.bind_eq_ok {α β : Type} {x : Except CompileError α} {f : α → Except CompileError β}
    {b : β} : (x >>= f) = .ok b ↔ ∃ a, x = .ok a ∧ f a = .ok b := by
  cases x <;> simp [bind, Except.bind]

theorem Except.exists_of_isOk {α : Type} {x : Except CompileError α} (h : x.isOk = true) :
    ∃ a, x = .ok a := by
  cases x with
  | ok a => exact ⟨a, rfl⟩
  | error e => cases h

theorem Except.mapM_eq_ok {α β : Type} {f : α → Except CompileError β} {xs : List α}
    {ys : List β} : xs.mapM f = .ok ys ↔ List.Forall₂ (fun x y => f x = .ok y) xs ys := by
  induction xs generalizing ys with
  | nil => cases ys <;> simp [pure, Except.pure]
  | cons x xs ih =>
    rw [List.mapM_cons]
    constructor
    · intro h
      obtain ⟨y, hy, h⟩ := bind_eq_ok.mp h
      obtain ⟨zs, hz, h⟩ := bind_eq_ok.mp h
      cases h
      exact .cons hy (ih.mp hz)
    · rintro (_ | ⟨hy, hys⟩)
      exact bind_eq_ok.mpr ⟨_, hy, bind_eq_ok.mpr ⟨_, ih.mpr hys, rfl⟩⟩

theorem Except.mapM_cons_eq_ok {α β : Type} {f : α → Except CompileError β} {x : α} {xs : List α}
    {ys : List β} : (x :: xs).mapM f = .ok ys ↔
      ∃ y zs, f x = .ok y ∧ xs.mapM f = .ok zs ∧ ys = y :: zs := by
  simp only [mapM_eq_ok, List.forall₂_cons_left_iff]

theorem Except.mapM_append_eq_ok {α β : Type} {f : α → Except CompileError β} {xs xs' : List α}
    {ys : List β} : (xs ++ xs').mapM f = .ok ys ↔
      ∃ us vs, xs.mapM f = .ok us ∧ xs'.mapM f = .ok vs ∧ ys = us ++ vs := by
  induction xs generalizing ys with
  | nil => simp [pure, Except.pure]
  | cons x xs ih =>
    rw [List.cons_append, mapM_cons_eq_ok]
    constructor
    · rintro ⟨y, zs, hy, hzs, rfl⟩
      obtain ⟨us, vs, hus, hvs, rfl⟩ := ih.mp hzs
      exact ⟨y :: us, vs, mapM_cons_eq_ok.mpr ⟨y, us, hy, hus, rfl⟩, hvs, rfl⟩
    · rintro ⟨us, vs, hus, hvs, rfl⟩
      obtain ⟨y, zs, hy, hzs, rfl⟩ := mapM_cons_eq_ok.mp hus
      exact ⟨y, zs ++ vs, hy, ih.mpr ⟨zs, vs, hzs, hvs, rfl⟩, rfl⟩

theorem Except.mapM_middle_eq_ok {α β : Type} {f : α → Except CompileError β} {xs xs' middle : List α}
    {ys zs : List β} (h : middle.mapM f = .ok zs) : (xs ++ middle ++ xs').mapM f = .ok ys ↔
      ∃ us vs, xs.mapM f = .ok us ∧ xs'.mapM f = .ok vs ∧ ys = us ++ zs ++ vs := by
  rw [mapM_append_eq_ok]
  constructor
  · rintro ⟨_, vs, hleft, hvs, rfl⟩
    obtain ⟨us, zs', hus, hzs, rfl⟩ := mapM_append_eq_ok.mp hleft
    cases h.symm.trans hzs
    exact ⟨us, vs, hus, hvs, rfl⟩
  · rintro ⟨us, vs, hus, hvs, rfl⟩
    exact ⟨us ++ zs, vs, mapM_append_eq_ok.mpr ⟨us, zs, hus, h, rfl⟩, hvs, rfl⟩

theorem Except.bind_eq_error {α β : Type} {x : Except CompileError α}
    {f : α → Except CompileError β} {e : CompileError} :
    (x >>= f) = .error e ↔ x = .error e ∨ ∃ a, x = .ok a ∧ f a = .error e := by
  cases x <;> simp [bind, Except.bind]

theorem Except.map_eq_error {α β : Type} {f : α → β} {x : Except CompileError α} {e : CompileError} :
    x.map f = .error e ↔ x = .error e := by
  cases x <;> simp [Except.map]

theorem Except.exists_of_mapM_eq_error {α β : Type} {f : α → Except CompileError β} {xs : List α}
    {e : CompileError} (h : xs.mapM f = .error e) : ∃ x ∈ xs, f x = .error e := by
  induction xs with
  | nil => cases h
  | cons x xs ih =>
    rw [List.mapM_cons] at h
    rcases bind_eq_error.mp h with hx | ⟨y, -, h⟩
    · exact ⟨x, List.mem_cons_self, hx⟩
    · rcases bind_eq_error.mp h with hxs | ⟨ys, -, h⟩
      · obtain ⟨x', hx', he⟩ := ih hxs
        exact ⟨x', List.mem_cons_of_mem x hx', he⟩
      · cases h

theorem Except.exists_of_forM_eq_error {α : Type} {f : α → Except CompileError Unit} {xs : List α}
    {e : CompileError} (h : xs.forM f = .error e) : ∃ x ∈ xs, f x = .error e := by
  induction xs with
  | nil => cases h
  | cons x xs ih =>
    have hcons : (x :: xs).forM f = f x >>= fun _ => xs.forM f := rfl
    rw [hcons] at h
    rcases bind_eq_error.mp h with hx | ⟨-, -, h⟩
    · exact ⟨x, List.mem_cons_self, hx⟩
    · obtain ⟨x', hx', he⟩ := ih h
      exact ⟨x', List.mem_cons_of_mem x hx', he⟩

namespace Action
variable {σ τ α β : Type}

@[simp] theorem pure_apply (a : α) (s : σ) : (pure a : Action σ α) s = .ok a s := rfl

@[simp] theorem throw_apply (e : CompileError) (s : σ) :
    (throw e : Action σ α) s = .error e s := rfl

@[simp] theorem get_apply (s : σ) : (get : Action σ σ) s = .ok s s := rfl

@[simp] theorem modify_apply (f : σ → σ) (s : σ) : (modify f : Action σ Unit) s = .ok () (f s) := rfl

theorem bind_apply (x : Action σ α) (f : α → Action σ β) (s : σ) :
    (x >>= f) s = match x s with
      | .ok a t => f a t
      | .error e t => .error e t := by
  simp only [bind, EStateM.bind]
  cases x s <;> rfl

theorem bind_of_ok {x : Action σ α} {s t : σ} {a : α} (h : x s = .ok a t) (f : α → Action σ β) :
    (x >>= f) s = f a t := by
  rw [bind_apply, h]

theorem bind_of_error {x : Action σ α} {s t : σ} {e : CompileError} (h : x s = .error e t)
    (f : α → Action σ β) : (x >>= f) s = .error e t := by
  rw [bind_apply, h]

theorem bind_eq_ok {x : Action σ α} {f : α → Action σ β} {s u : σ} {b : β} :
    (x >>= f) s = .ok b u ↔ ∃ a t, x s = .ok a t ∧ f a t = .ok b u := by
  rw [bind_apply]
  cases x s <;> simp

theorem bind_eq_error {x : Action σ α} {f : α → Action σ β} {s u : σ} {e : CompileError} :
    (x >>= f) s = .error e u ↔
      x s = .error e u ∨ ∃ a t, x s = .ok a t ∧ f a t = .error e u := by
  rw [bind_apply]
  cases x s <;> simp

theorem forM_cons (x : α) (xs : List α) (f : α → Action σ PUnit) :
    (x :: xs).forM f = f x >>= fun _ => xs.forM f := rfl

theorem exists_of_foldlM_eq_error {f : β → α → Action σ β} {xs : List α} {b : β} {s u : σ}
    {e : CompileError} (h : xs.foldlM f b s = .error e u) :
    ∃ x ∈ xs, ∃ b' t, f b' x t = .error e u := by
  induction xs generalizing b s with
  | nil => cases h
  | cons x xs ih =>
    rw [List.foldlM_cons] at h
    rcases bind_eq_error.mp h with hx | ⟨b', t, -, hrest⟩
    · exact ⟨x, List.mem_cons_self, b, s, hx⟩
    · obtain ⟨x', hx', hfail⟩ := ih hrest
      exact ⟨x', List.mem_cons_of_mem x hx', hfail⟩

theorem mapM_congr {f g : α → Action σ β} {xs : List α} (h : ∀ x ∈ xs, f x = g x) :
    xs.mapM f = xs.mapM g := by
  induction xs with
  | nil => rfl
  | cons x xs ih =>
    rw [List.mapM_cons, List.mapM_cons, h x List.mem_cons_self,
      ih fun x' hx' => h x' (List.mem_cons_of_mem x hx')]

theorem map_eq_ok {x : Action σ α} {f : α → β} {s t : σ} {b : β} :
    (f <$> x) s = .ok b t ↔ ∃ a, x s = .ok a t ∧ f a = b := by
  simp only [Functor.map, EStateM.map]
  cases x s <;> simp [and_comm]

theorem discard_apply (x : Action σ α) (s : σ) :
    (discard x : Action σ Unit) s = match x s with
      | .ok _ t => .ok () t
      | .error e t => .error e t := by
  simp only [discard, Functor.mapConst, Function.comp, EStateM.map]
  cases x s <;> rfl

theorem discard_eq_ok {x : Action σ α} {s t : σ} {u : Unit} :
    (discard x) s = .ok u t ↔ ∃ a, x s = .ok a t := by
  rw [discard_apply]
  cases x s <;> simp

theorem discard_eq_error {x : Action σ α} {s t : σ} {e : CompileError} :
    (discard x) s = .error e t ↔ x s = .error e t := by
  rw [discard_apply]
  cases x s <;> simp

theorem ofExcept_eq_ok {r : Except CompileError α} {s t : σ} {a : α} :
    (ofExcept r : Action σ α) s = .ok a t ↔ r = .ok a ∧ s = t := by
  cases r <;> simp

theorem ofExcept_eq_error {r : Except CompileError α} {s t : σ} {e : CompileError} :
    (ofExcept r : Action σ α) s = .error e t ↔ r = .error e ∧ s = t := by
  cases r <;> simp

theorem within_apply (get : σ → τ) (set : τ → σ → σ) (x : Action τ α) (s : σ) :
    (x.within get set) s = match x (get s) with
      | .ok a t => .ok a (set t s)
      | .error e t => .error e (set t s) := rfl

theorem attempt_eq_ok {x : Action σ α} {s : σ} {a : α} :
    (x.attempt s).1 = .ok a ↔ x s = .ok a (x.attempt s).2 := by
  unfold attempt
  cases x s <;> simp

theorem attempt_eq_error {x : Action σ α} {s : σ} {e : CompileError} :
    (x.attempt s).1 = .error e ↔ x s = .error e (x.attempt s).2 := by
  unfold attempt
  cases x s <;> simp

/-! ### What outlasts an action -/

/-- The property `P` of the state outlasts the action, also when it fails, and what it raises has the
property `E`. -/
def Keeps (P : σ → Prop) (E : CompileError → Prop) (x : Action σ α) : Prop := ∀ s, P s →
  match x s with
  | .ok _ t => P t
  | .error e t => P t ∧ E e

def KeepsAt (P : σ → Prop) (E : CompileError → Prop) (x : Action σ α) (s : σ) : Prop :=
  match x s with
  | .ok _ t => P t
  | .error e t => P t ∧ E e

namespace Keeps
variable {P : σ → Prop} {E : CompileError → Prop}

theorem pure (a : α) : Keeps P E (pure a : Action σ α) := fun _ h => h

theorem throw {e : CompileError} (he : E e) : Keeps P E (throw e : Action σ α) :=
  fun _ h => ⟨h, he⟩

theorem get : Keeps P E (get : Action σ σ) := fun _ h => h

theorem modify {f : σ → σ} (hf : ∀ s, P s → P (f s)) : Keeps P E (modify f : Action σ Unit) := hf

theorem ofExcept {r : Except CompileError α} (hr : ∀ e, r = .error e → E e) :
    Keeps P E (ofExcept r : Action σ α) := by
  cases r with
  | ok a => exact pure a
  | error e => exact throw (hr e rfl)

theorem ofExcept_bind {r : Except CompileError α} {f : α → Action σ β}
    (hr : ∀ e, r = .error e → E e) (hf : ∀ a, r = .ok a → Keeps P E (f a)) :
    Keeps P E (Action.ofExcept r >>= f) := by
  cases r with
  | ok a => exact hf a rfl
  | error e => exact throw (hr e rfl)

theorem ok {x : Action σ α} {s t : σ} {a : α} (hx : Keeps P E x) (hs : P s)
    (h : x s = .ok a t) : P t := by
  simpa [h] using hx s hs

theorem error {x : Action σ α} {s t : σ} {e : CompileError} (hx : Keeps P E x) (hs : P s)
    (h : x s = .error e t) : P t ∧ E e := by
  simpa [h] using hx s hs

theorem attempt {x : Action σ α} {s : σ} (hx : Keeps P E x) (hs : P s) : P (x.attempt s).2 := by
  unfold Action.attempt
  cases h : x s with
  | ok a t => exact hx.ok hs h
  | error e t => exact (hx.error hs h).1

theorem bind {x : Action σ α} {f : α → Action σ β} (hx : Keeps P E x)
    (hf : ∀ a, Keeps P E (f a)) : Keeps P E (x >>= f) := by
  intro s hs
  rw [bind_apply]
  cases h : x s with
  | ok a t => exact hf a t (hx.ok hs h)
  | error e t => exact hx.error hs h

theorem keepsAt {x : Action σ α} {s : σ} (hx : Keeps P E x) (hs : P s) : KeepsAt P E x s := hx s hs

theorem get_bind {f : σ → Action σ β} (hf : ∀ s, P s → KeepsAt P E (f s) s) :
    Keeps P E (MonadState.get >>= f : Action σ β) := hf

theorem weaken {Q : σ → Prop} {x : Action σ α} {s : σ} (hx : Keeps Q E x) (hs : Q s)
    (hQ : ∀ t, Q t → P t) : KeepsAt P E x s := by
  have h := hx s hs
  unfold KeepsAt
  cases hxs : x s with
  | ok a t =>
    rw [hxs] at h
    exact hQ t h
  | error e t =>
    rw [hxs] at h
    exact ⟨hQ t h.1, h.2⟩

theorem imp {E' : CompileError → Prop} {x : Action σ α} (hx : Keeps P E x) (hE : ∀ e, E e → E' e) :
    Keeps P E' x := by
  intro s hs
  have h := hx s hs
  cases hxs : x s with
  | ok a t =>
    rw [hxs] at h
    exact h
  | error e t =>
    rw [hxs] at h
    exact ⟨h.1, hE e h.2⟩

theorem map {x : Action σ α} (f : α → β) (hx : Keeps P E x) : Keeps P E (f <$> x) := by
  intro s hs
  simp only [Functor.map, EStateM.map]
  cases h : x s with
  | ok a t => exact hx.ok hs h
  | error e t => exact hx.error hs h

theorem discard {x : Action σ α} (hx : Keeps P E x) : Keeps P E (discard x : Action σ Unit) := by
  intro s hs
  rw [discard_apply]
  cases h : x s with
  | ok a t => exact hx.ok hs h
  | error e t => exact hx.error hs h

theorem forM {f : β → Action σ PUnit} (hf : ∀ b, Keeps P E (f b)) (bs : List β) :
    Keeps P E (bs.forM f) := by
  induction bs with
  | nil => exact pure ()
  | cons b bs ih => exact bind (hf b) fun _ => ih

theorem mapM {f : β → Action σ α} (hf : ∀ b, Keeps P E (f b)) (bs : List β) :
    Keeps P E (bs.mapM f) := by
  induction bs with
  | nil => exact pure []
  | cons b bs ih =>
    rw [List.mapM_cons]
    exact bind (hf b) fun a => bind ih fun as => pure (a :: as)

theorem foldlM {f : β → α → Action σ β} {as : List α} (hf : ∀ a ∈ as, ∀ b, Keeps P E (f b a))
    (b : β) : Keeps P E (as.foldlM f b) := by
  induction as generalizing b with
  | nil => exact pure b
  | cons a as ih =>
    rw [List.foldlM_cons]
    exact bind (hf a List.mem_cons_self b) (ih fun a' ha' => hf a' (List.mem_cons_of_mem a ha'))

theorem within {get : σ → τ} {set : τ → σ → σ} {Q : τ → Prop} {x : Action τ α}
    (hx : Keeps Q E x) (hget : ∀ s, P s → Q (get s)) (hset : ∀ s t, P s → Q t → P (set t s)) :
    Keeps P E (x.within get set) := by
  intro s hs
  rw [within_apply]
  cases h : x (get s) with
  | ok a t => exact hset s t hs (hx.ok (hget s hs) h)
  | error e t => exact ⟨hset s t hs (hx.error (hget s hs) h).1, (hx.error (hget s hs) h).2⟩

end Keeps

/-! ### What an action answers -/

/-- What the action answers has the property `P`, and what it raises the property `E`. -/
def Yields (P : α → Prop) (E : CompileError → Prop) (x : Action σ α) : Prop :=
  ∀ s, match x s with
    | .ok a _ => P a
    | .error e _ => E e

namespace Yields
variable {P : α → Prop} {Q : β → Prop} {E : CompileError → Prop}

theorem pure {a : α} (h : P a) : Yields P E (pure a : Action σ α) := fun _ => h

theorem throw {e : CompileError} (h : E e) : Yields P E (throw e : Action σ α) := fun _ => h

theorem ofExcept {r : Except CompileError α} (h : match r with | .ok a => P a | .error e => E e) :
    Yields P E (ofExcept r : Action σ α) := by
  cases r with
  | ok a => exact pure h
  | error e => exact throw h

theorem bind {x : Action σ α} {f : α → Action σ β} (hx : Yields P E x)
    (hf : ∀ a, P a → Yields Q E (f a)) : Yields Q E (x >>= f) := by
  intro s
  have hs := hx s
  rw [bind_apply]
  cases h : x s with
  | ok a t => exact hf a (by simpa [h] using hs) t
  | error e t => simpa [h] using hs

theorem map {x : Action σ α} {f : α → β} (hx : Yields (fun a => Q (f a)) E x) :
    Yields Q E (f <$> x) := by
  intro s
  have hs := hx s
  simp only [Functor.map, EStateM.map]
  cases h : x s <;> simpa [h] using hs

theorem trivial (x : Action σ α) : Yields (fun _ => True) (fun _ => True) x := by
  intro s
  cases x s <;> exact True.intro

theorem imp {P' : α → Prop} {E' : CompileError → Prop} {x : Action σ α} (hx : Yields P E x)
    (hP : ∀ a, P a → P' a) (hE : ∀ e, E e → E' e) : Yields P' E' x := by
  intro s
  have hs := hx s
  cases h : x s with
  | ok a t => exact hP a (by simpa [h] using hs)
  | error e t => exact hE e (by simpa [h] using hs)

theorem and {P' : α → Prop} {E' : CompileError → Prop} {x : Action σ α} (hx : Yields P E x)
    (hx' : Yields P' E' x) : Yields (fun a => P a ∧ P' a) (fun e => E e ∧ E' e) x := by
  intro s
  have hs := hx s
  have hs' := hx' s
  cases h : x s with
  | ok a t => exact ⟨by simpa [h] using hs, by simpa [h] using hs'⟩
  | error e t => exact ⟨by simpa [h] using hs, by simpa [h] using hs'⟩

theorem ok {x : Action σ α} {s t : σ} {a : α} (hx : Yields P E x) (h : x s = .ok a t) : P a := by
  simpa [h] using hx s

theorem error {x : Action σ α} {s t : σ} {e : CompileError} (hx : Yields P E x)
    (h : x s = .error e t) : E e := by
  simpa [h] using hx s

end Yields

/-- `y` does what `x` does, unless `x` nests its calls too deeply. -/
def Approximates (x y : Action σ α) : Prop :=
  ∀ s, (∃ t, x s = .error (.runtime .callDepth) t) ∨ y s = x s

namespace Approximates

theorem refl (x : Action σ α) : Approximates x x := fun _ => .inr rfl

theorem bind {x y : Action σ α} {f g : α → Action σ β} (hx : Approximates x y)
    (hf : ∀ a, Approximates (f a) (g a)) : Approximates (x >>= f) (y >>= g) := by
  intro s
  rw [bind_apply, bind_apply]
  rcases hx s with ⟨t, h⟩ | h
  · exact .inl ⟨t, by rw [h]⟩
  · rw [h]
    cases x s with
    | ok a t => exact hf a t
    | error e t => exact .inr rfl

theorem foldlM {f g : β → α → Action σ β} (hf : ∀ b a, Approximates (f b a) (g b a)) (as : List α)
    (b : β) : Approximates (as.foldlM f b) (as.foldlM g b) := by
  induction as generalizing b with
  | nil => exact refl _
  | cons a as ih =>
    rw [List.foldlM_cons, List.foldlM_cons]
    exact bind (hf b a) ih

end Approximates

end Action
end StackEffect
