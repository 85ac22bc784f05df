import StackEffect.Proofs.Machine.Depth
import StackEffect.Proofs.Session.Execution
import StackEffect.Proofs.Session.Timely

/-!
Where complaints come from. The targets of this project complain of their own affairs only
(`Machine.isTechnical_of_raises`, `IRModule.isTechnical_of_raises`). Then it is reading alone that finds
that a text breaks off: what a phrase that has been read fails for is another matter, unless its body
has no end (`perform_error`).
-/
namespace StackEffect

/-- The complaint that a text breaks off in the middle of something. -/
def CompileError.IsAbrupt : CompileError → Prop
  | .unterminatedString _ | .unterminatedDefinition _
  | .arity _ (.declaration .unterminated) => True
  | _ => False

theorem CompileError.IsTechnical.not_isAbrupt {e : CompileError} (h : e.IsTechnical) :
    ¬e.IsAbrupt := by
  intro habrupt
  unfold CompileError.IsAbrupt at habrupt
  split at habrupt <;> simp_all [CompileError.IsTechnical]

theorem CompileError.IsRefusal.not_isAbrupt {e : CompileError} (h : e.IsRefusal) : ¬e.IsAbrupt := by
  intro habrupt
  unfold CompileError.IsAbrupt at habrupt
  split at habrupt <;> simp_all [CompileError.IsRefusal]

theorem Machine.isTechnical_of_raises {e : CompileError} (h : Machine.target.Raises e) :
    e.IsTechnical :=
  technical.isTechnical_of_raises technical_execute (0 : Nat) h

theorem IRModule.isTechnical_of_raises {e : CompileError} (h : IRModule.target.Raises e) :
    e.IsTechnical :=
  technical.isTechnical_of_raises (fun _ _ => .throw trivial)
    { symbol := "", signature := ⟨[], []⟩, parameters := [], results := [] } h

namespace Session
variable {T : Target} {s s' : Session T} {e : CompileError} {u : Unit}

theorem signature_error {w : Word} (h : w.signature = .error e) :
    (∃ use, e = .unsupported use) ∨ ∃ index bound, e = .indexOutOfRange index bound := by
  unfold Word.signature at h
  split at h
  · exact .inr (Definition.signature_error h)
  · cases h
  · cases h
    exact .inl ⟨_, rfl⟩
  · cases h
    exact .inl ⟨_, rfl⟩

/-- A token that stands for nothing is unknown, or its word cannot be used. -/
theorem operation_error {dictionary : Dictionary} {t : Token}
    (h : operation dictionary t = .error e) : (∃ name, e = .unknownToken name) ∨
      (∃ use, e = .unsupported use) ∨ ∃ index bound, e = .indexOutOfRange index bound := by
  unfold operation at h
  split at h
  · refine .inr ?_
    unfold wordOperation at h
    split at h
    · cases h
    · cases h
      exact .inl ⟨_, rfl⟩
    · cases h
      exact .inl ⟨_, rfl⟩
    all_goals
      split at h
      · cases h
      · rcases Except.bind_eq_error.mp h with hw | ⟨signature, -, h⟩
        · exact signature_error hw
        · cases h
  · rcases Except.bind_eq_error.mp h with hv | ⟨value, -, h⟩
    · unfold constant at hv
      split at hv <;> cases hv
      exact .inl ⟨_, rfl⟩
    · cases h

theorem not_isAbrupt_of_operation {dictionary : Dictionary} {t : Token}
    (h : operation dictionary t = .error e) : ¬e.IsAbrupt := by
  rcases operation_error h with ⟨name, rfl⟩ | ⟨use, rfl⟩ | ⟨index, bound, rfl⟩ <;>
    simp [CompileError.IsAbrupt]

theorem not_isAbrupt_of_readBody {dictionary : Dictionary} (hdict : dictionary.Sound)
    {body : List Token} {draft : Draft} (h : readBody dictionary body {} = .error e draft) :
    ¬e.IsAbrupt := by
  rcases readTokens_error hdict (Draft.Sound.empty _) h with
    ⟨t, -, hfault⟩ | ⟨t, -, op, -, required, -, actual, rfl⟩
  · exact not_isAbrupt_of_operation hfault
  · simp [CompileError.IsAbrupt]

theorem fault?_of_perform {position : Nat} {p : Phrase} (h : perform position p s = .ok u s') :
    p.fault? = none := by
  cases p with
  | definition name body fault =>
    cases fault with
    | none => rfl
    | some e =>
      rw [perform, define_eq] at h
      cases hread : readBody s.dictionary body {} <;> simp [hread] at h
  | declaration => rfl
  | see => rfl
  | token => rfl

variable (hT : ∀ {e}, T.Raises e → e.IsTechnical)
include hT

theorem not_isAbrupt_of_generate {d : Definition} {functions : FunctionTable T}
    {target target' : T.State} (h : generate d functions target = .error e target') :
    ¬e.IsAbrupt := by
  have hraises : ∀ e, T.Raises e → ¬e.IsAbrupt := fun _ he => (hT he).not_isAbrupt
  have hE : Emission.Raises d.graph functions fun e => ¬e.IsAbrupt := by
    constructor <;> simp [CompileError.IsAbrupt]
  exact ((keeps_generate (fun _ => (Target.keeps_of_raises .declare).imp hraises)
    (fun function => (T.keeps_raises function).imp hraises) hE).error trivial h).2

/-- A phrase that has been read is not said to break off, unless its body has no end. -/
theorem perform_error (hdict : s.dictionary.Sound) {position : Nat} {phrase : Phrase}
    (h : perform position phrase s = .error e s') : phrase.fault? = some e ∨ ¬e.IsAbrupt := by
  cases phrase with
  | definition name body fault =>
    rcases define_eq_error h with ⟨draft, hread, -⟩ | ⟨draft, -, rfl, -⟩ |
      ⟨draft, target, -, -, hg, -⟩
    · exact .inr (not_isAbrupt_of_readBody hdict hread)
    · exact .inl rfl
    · exact .inr (not_isAbrupt_of_generate hT hg)
  | declaration name inputs outputs =>
    obtain ⟨target, -, ⟨⟨code, rfl⟩, -⟩ | ⟨signature, hd⟩⟩ := declare_eq_error h
    · exact .inr (by simp [CompileError.IsAbrupt])
    · exact .inr (hT (.declare hd)).not_isAbrupt
  | see name =>
    rcases see_cases name s with hs | ⟨output, hs⟩ <;> cases hs.symm.trans h
    exact .inr (by simp [CompileError.IsAbrupt])
  | token t =>
    obtain ⟨result, hx, hresult⟩ := exists_execution s t
    rw [perform, hresult] at h
    cases hx with
    | done => cases h
    | refused e hargs he =>
      cases h
      exact .inr he.not_isAbrupt
    | mismatched word expected actual hargs =>
      cases h
      exact .inr (by simp [CompileError.IsAbrupt])
    | called function rest hs =>
      dsimp only at h
      split at h <;> cases h
      rename_i hcall
      exact .inr (hT (.execute hcall)).not_isAbrupt
    | unfilled word rest hs =>
      cases h
      exact .inr (by simp [CompileError.IsAbrupt])

end Session
end StackEffect
