import StackEffect.Proofs.Phrase
import StackEffect.Proofs.Session.Typing
import StackEffect.Proofs.Targets

/-!
Words are there when they are used. Where every word that a user can name has been completed
(`Completed`), reading a body never meets a word that cannot be used yet
(`Completed.readTokens_error`), and neither does the generation of its code
(`Completed.timely_generate`): such a complaint can only be made by the target itself.
-/
namespace StackEffect

/-- A call of the target fails with the error. -/
inductive Target.Raises (T : Target) (e : CompileError) : Prop
  | declare {name symbol signature t t'} : T.declare name symbol signature t = .error e t' →
      Raises T e
  | beginBody {function t t'} : T.beginBody function t = .error e t' → Raises T e
  | argument {index type t t'} : T.argument index type t = .error e t' → Raises T e
  | literal {value t t'} : T.literal value t = .error e t' → Raises T e
  | primitive {p operands t t'} : T.primitive p operands t = .error e t' → Raises T e
  | call {callee operands t t'} : T.call callee operands t = .error e t' → Raises T e
  | finishBody {function operands t t'} : T.finishBody function operands t = .error e t' →
      Raises T e
  | execute {function arguments t t'} : T.execute function arguments t = .error e t' → Raises T e

/-- No complaint that a word is used too early, unless the target makes it. -/
def Target.Timely (T : Target) (e : CompileError) : Prop := e.IsPremature → T.Raises e

theorem CompileError.IsUnreadable.timely {e : CompileError} (h : e.IsUnreadable) (T : Target) :
    T.Timely e := by
  intro hp
  unfold IsUnreadable at h
  split at h <;> simp_all [IsPremature]

theorem Target.timely_of_not {T : Target} {e : CompileError} (h : ¬e.IsPremature) : T.Timely e :=
  fun hp => absurd hp h

theorem Target.Raises.timely {T : Target} {e : CompileError} (h : T.Raises e) : T.Timely e :=
  fun _ => h

theorem Target.keeps_of_raises {T : Target} {σ α : Type} {x : Action σ α}
    (h : ∀ {e s s'}, x s = .error e s' → T.Raises e) : x.Keeps (fun _ => True) T.Raises := by
  intro s _
  cases hx : x s with
  | ok a s' => trivial
  | error e s' => exact ⟨trivial, h hx⟩

theorem Target.keeps_raises (T : Target) (function : T.Function) :
    T.Keeps (fun _ => True) T.Raises function where
  beginBody := keeps_of_raises .beginBody
  argument _ _ := keeps_of_raises .argument
  literal _ := keeps_of_raises .literal
  primitive _ _ := keeps_of_raises .primitive
  call _ _ := keeps_of_raises .call
  finishBody _ := keeps_of_raises .finishBody

theorem Target.Technical.isTechnical_of_raises {T : Target} (h : T.Technical)
    (hexecute : ∀ function arguments, (T.execute function arguments).Technical)
    (some : T.Function) {e : CompileError} (he : T.Raises e) : e.IsTechnical := by
  cases he with
  | declare he => exact ((h.declare _ _ _).error trivial he).2
  | beginBody he => exact ((h.body _).beginBody.error trivial he).2
  | argument he => exact (((h.body some).argument _ _).error trivial he).2
  | literal he => exact (((h.body some).literal _).error trivial he).2
  | primitive he => exact (((h.body some).primitive _ _).error trivial he).2
  | call he => exact (((h.body some).call _ _).error trivial he).2
  | finishBody he => exact (((h.body _).finishBody _).error trivial he).2
  | execute he => exact ((hexecute _ _).error trivial he).2

/-! ### Reading bodies -/

namespace Session

/-- Every visible word has been completed, and a function stands in the place of each word that a user
has entered. -/
structure Completed {T : Target} (d : Dictionary) (functions : FunctionTable T) : Prop where
  visible : ∀ {id w}, d.word? id = some w → w.kind = .pending → w.isHidden = true
  filled : ∀ {id w}, d.word? id = some w → w.isUser = true → (functions[id]?).join ≠ none

variable {T : Target} {dictionary : Dictionary} {functions : FunctionTable T}

theorem Completed.operation_error (h : Completed dictionary functions) {t : Token}
    {e : CompileError} (he : operation dictionary t = .error e) : ¬e.IsPremature := by
  unfold operation at he
  cases hn : named dictionary t with
  | none =>
    rw [hn] at he
    rcases Except.bind_eq_error.mp he with he | ⟨value, -, he⟩
    · exact not_isPremature_of_constant he
    · cases he
  | some x =>
    obtain ⟨id, w⟩ := x
    rw [hn] at he
    have hcall : (do return Operation.call ⟨id, w.name, ← w.signature⟩) = .error e →
        ¬e.IsPremature := by
      intro hc
      rcases Except.bind_eq_error.mp hc with hs | ⟨s, -, hc⟩
      · exact Word.not_isPremature_of_signature hs
      · cases hc
    have hvisible := isHidden_of_named hn
    have hpending := h.visible (word?_of_named hn)
    obtain ⟨name, kind, inline, hidden⟩ := w
    cases kind with
    | builtin b =>
      cases b with
      | primitive p => cases he
      | directive d =>
        cases he
        simp [CompileError.IsPremature]
    | pending => simp_all
    | external s symbol => cases inline <;> exact hcall he
    | compiled f =>
      cases inline with
      | true => cases he
      | false => exact hcall he

/-- A body is turned down for what one of its tokens stands for, or for a type that one of them asks
for. -/
theorem readTokens_error (hdict : dictionary.Sound) {tokens : List (Token × Nat)} {d d' : Draft}
    {e : CompileError} (hd : d.Sound dictionary.vocabulary)
    (he : readTokens dictionary tokens d = .error e d') :
    (∃ t ∈ tokens, operation dictionary t.1 = .error e) ∨
      ∃ t ∈ tokens, ∃ op, operation dictionary t.1 = .ok op ∧ ∃ required ∈ op.demands, ∃ actual,
        e = .typeMismatch op.word t.2 required actual := by
  unfold readTokens at he
  induction tokens generalizing d with
  | nil => cases he
  | cons t tokens ih =>
    rw [Action.forM_cons] at he
    rcases Action.bind_eq_error.mp he with he | ⟨_, d₁, h₁, he⟩
    · have hread : readToken dictionary t.1 t.2 d = .error e d' := he
      rw [readToken_eq] at hread
      rcases Action.bind_eq_error.mp hread with hfault | ⟨op, d₀, hread₀, hread⟩
      · exact .inl ⟨t, List.mem_cons_self, (Action.ofExcept_eq_error.mp hfault).1⟩
      · obtain ⟨hop, rfl⟩ := Action.ofExcept_eq_ok.mp hread₀
        have hsound := sound_of_resolves hdict (resolves_of_ok hop)
        exact .inr ⟨t, List.mem_cons_self, op, hop, hsound.read_error hd hread⟩
    · rcases ih (sound_readToken hdict hd h₁).1 he with ⟨t', ht', hfault⟩ | ⟨t', ht', htype⟩
      · exact .inl ⟨t', List.mem_cons_of_mem t ht', hfault⟩
      · exact .inr ⟨t', List.mem_cons_of_mem t ht', htype⟩

theorem Completed.readTokens_error (h : Completed dictionary functions) (hdict : dictionary.Sound)
    {tokens : List (Token × Nat)} {d d' : Draft} {e : CompileError}
    (hd : d.Sound dictionary.vocabulary) (he : readTokens dictionary tokens d = .error e d') :
    ¬e.IsPremature := by
  rcases Session.readTokens_error hdict hd he with
    ⟨t, -, hfault⟩ | ⟨t, -, op, -, required, -, actual, rfl⟩
  · exact h.operation_error hfault
  · simp [CompileError.IsPremature]

theorem Completed.raises_timely (h : Completed dictionary functions) {g : Graph}
    (hg : g.Sound dictionary.vocabulary) : Emission.Raises g functions T.Timely where
  index _ _ := Target.timely_of_not (by simp [CompileError.IsPremature])
  circular := Target.timely_of_not (by simp [CompileError.IsPremature])
  count _ _ _ := Target.timely_of_not (by simp [CompileError.IsPremature])
  callee {id n callee} hn hk hf := by
    have hword := hg.words hn
    rw [hk] at hword
    obtain ⟨w, hw, hu, -⟩ := hword
    exact absurd hf (h.filled hw hu)

theorem Completed.timely_generate (h : Completed dictionary functions) {d : Definition}
    (hd : d.Sound dictionary.vocabulary) :
    (generate d functions).Keeps (fun _ => True) T.Timely :=
  keeps_generate (fun _ => (Target.keeps_of_raises .declare).imp fun _ he => he.timely)
    (fun function => (T.keeps_raises function).imp fun _ he => he.timely) (h.raises_timely hd.graph)

end Session
end StackEffect
