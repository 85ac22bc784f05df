import StackEffect.Proofs.Phrase
import StackEffect.Proofs.Session.Reachable

/-!
Where a run comes to a halt. A run deals with one phrase after the other, up to the end of the text or
to a phrase that it does not get through (`halt`); those in front of it are the ones it has `passed`.
What one phrase keeps holds at the halt (`halt_induction`), and there it is seen how the run ends
(`ends_halt`).
-/
namespace StackEffect.Session
variable {T : Target} {c rest : Cursor} {s s' : Session T} {e : CompileError} {phrase : Phrase}
  {u : Unit}

theorem runFrom_of_error (h : c.nextPhrase s.seesNext = .error e) : runFrom c s = .error e s := by
  rw [runFrom]
  split <;> simp_all

theorem runFrom_of_end (h : c.nextPhrase s.seesNext = .ok none) : runFrom c s = .ok () s := by
  rw [runFrom]
  split <;> simp_all

theorem runFrom_of_phrase (h : c.nextPhrase s.seesNext = .ok (some (phrase, rest))) :
    runFrom c s = (do perform c.consumed phrase; runFrom rest) s := by
  rw [runFrom, Action.bind_apply]
  split
  · simp_all
  · simp_all
  · rename_i phrase' rest' h'
    cases h.symm.trans h'
    cases perform c.consumed phrase s <;> rfl

/-- The place in a text where a run comes to a halt, and the session as it is there: at the end, or
before the first phrase that cannot be read or fails. -/
def halt (c : Cursor) (s : Session T) : Cursor × Session T :=
  match _h : c.nextPhrase s.seesNext with
  | .error _ | .ok none => (c, s)
  | .ok (some (phrase, rest)) =>
    match perform c.consumed phrase s with
    | .error .. => (c, s)
    | .ok _ s' => halt rest s'
termination_by c.rest.length
decreasing_by exact Cursor.length_nextPhrase_lt ‹_›

theorem halt_of_error (h : c.nextPhrase s.seesNext = .error e) : halt c s = (c, s) := by
  rw [halt]
  split <;> simp_all

theorem halt_of_end (h : c.nextPhrase s.seesNext = .ok none) : halt c s = (c, s) := by
  rw [halt]
  split <;> simp_all

theorem halt_of_phrase (h : c.nextPhrase s.seesNext = .ok (some (phrase, rest))) :
    halt c s = match perform c.consumed phrase s with
      | .error .. => (c, s)
      | .ok _ s' => halt rest s' := by
  rw [halt]
  split
  · simp_all
  · simp_all
  · rename_i phrase' rest' h'
    cases h.symm.trans h'
    rfl

/-- What each phrase keeps that a run gets through holds where it comes to a halt. -/
theorem halt_induction {P : Cursor → Session T → Prop}
    (step : ∀ {c s phrase rest u s'}, P c s → c.nextPhrase s.seesNext = .ok (some (phrase, rest)) →
      perform c.consumed phrase s = .ok u s' → P rest s') (h : P c s) :
    P (halt c s).1 (halt c s).2 := by
  fun_induction runFrom c s with
  | case1 c s e hn => rwa [halt_of_error hn]
  | case2 c s hn => rwa [halt_of_end hn]
  | case3 c s phrase rest hn e s' hp => rwa [halt_of_phrase hn, hp]
  | case4 c s phrase rest hn u s' hp ih =>
    rw [halt_of_phrase hn, hp]
    exact ih (step h hn hp)

/-- What outlasts all that can happen holds where a run comes to a halt. -/
theorem holds_halt {I : Knowledge T} (hI : Lasting I) (c : Cursor) (h : Holds I s) :
    Holds I (halt c s).2 :=
  halt_induction (P := fun _ s => Holds I s) (fun hs _ hp => (outlasts_perform hI _ _).ok hs hp) h

/-- The phrases that a run gets through before it comes to a halt. -/
def passed (c : Cursor) (s : Session T) : List Phrase :=
  match _h : c.nextPhrase s.seesNext with
  | .error _ | .ok none => []
  | .ok (some (phrase, rest)) =>
    match perform c.consumed phrase s with
    | .error .. => []
    | .ok _ s' => phrase :: passed rest s'
termination_by c.rest.length
decreasing_by exact Cursor.length_nextPhrase_lt ‹_›

theorem passed_of_perform (h : c.nextPhrase s.seesNext = .ok (some (phrase, rest)))
    (hp : perform c.consumed phrase s = .ok u s') : passed c s = phrase :: passed rest s' := by
  rw [passed]
  split
  · simp_all
  · simp_all
  · rename_i phrase' rest' h'
    cases h.symm.trans h'
    rw [hp]

/-- How a run ends that is at its halt. -/
inductive Ends (c : Cursor) (s : Session T) :
    EStateM.Result CompileError (Session T) Unit → Prop
  | finished : c.nextPhrase s.seesNext = .ok none → Ends c s (.ok () s)
  | unread {e : CompileError} : c.nextPhrase s.seesNext = .error e → Ends c s (.error e s)
  | failed {phrase : Phrase} {rest : Cursor} {e : CompileError} {s' : Session T} :
      c.nextPhrase s.seesNext = .ok (some (phrase, rest)) →
      perform c.consumed phrase s = .error e s' → Ends c s (.error e s')

theorem ends_halt (c : Cursor) (s : Session T) :
    Ends (halt c s).1 (halt c s).2 (runFrom c s) := by
  fun_induction runFrom c s with
  | case1 c s e hn =>
    rw [halt_of_error hn]
    exact .unread hn
  | case2 c s hn =>
    rw [halt_of_end hn]
    exact .finished hn
  | case3 c s phrase rest hn e s' hp =>
    rw [halt_of_phrase hn, hp]
    exact .failed hn hp
  | case4 c s phrase rest hn u s' hp ih => rwa [halt_of_phrase hn, hp]

theorem run_eq_ok {text : String} : run text s = .ok u s' ↔
    ∃ s₁, runFrom (.ofText text) s = .ok () s₁ ∧ s' = s₁.takeOver := by
  unfold run
  cases runFrom (.ofText text) s <;> simp [eq_comm]

theorem run_eq_error {text : String} : run text s = .error e s' ↔
    ∃ s₁, runFrom (.ofText text) s = .error e s₁ ∧ s' = s₁.reset.takeOver := by
  unfold run
  cases runFrom (.ofText text) s <;> simp [eq_comm]

end StackEffect.Session
