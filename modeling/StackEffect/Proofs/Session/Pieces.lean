import StackEffect.Proofs.Cursor.Seam
import StackEffect.Proofs.Session.Abandoning

/-!
A text in pieces. Further on in a text a session does the same, and its complaints name places that are
further on (`runFrom_later`). So a text can be given to a session in two pieces, cut between two lines
where no phrase and no comment goes on: session and outcome are those of the whole (`run_append`).
-/
namespace StackEffect

/-- The complaint about a token that is executed `k` tokens further on. -/
def CompileError.behind (k : Nat) : CompileError → CompileError
  | .typeMismatch word position expected actual =>
    .typeMismatch word (position + k) expected actual
  | e => e

theorem CompileError.lower_of_not_isAbrupt {e : CompileError} (h : ¬e.IsAbrupt) (n : Nat) :
    e.lower n = e := by
  unfold lower
  split
  · exact absurd trivial h
  · rfl

theorem CompileError.IsRefusal.behind_eq {e : CompileError} (h : e.IsRefusal) (k : Nat) :
    e.behind k = e := by
  unfold behind
  split
  · exact h.elim
  · rfl

theorem CompileError.IsTechnical.behind_eq {e : CompileError} (h : e.IsTechnical) (k : Nat) :
    e.behind k = e := by
  unfold behind
  split
  · exact h.elim
  · rfl

def complaining {σ : Type} (f : CompileError → CompileError) :
    EStateM.Result CompileError σ Unit → EStateM.Result CompileError σ Unit
  | .ok u s => .ok u s
  | .error e s => .error (f e) s

def Phrase.displaced (k n : Nat) : Phrase → CompileError → CompileError
  | .token _, e => e.behind k
  | _, e => e.lower n

namespace Session
variable {T : Target} {s s' : Session T} {e : CompileError} {u : Unit} (k n : Nat)

/-! ### Phrases -/

theorem alike_later (body : List Token) :
    List.Forall₂ Token.Alike (body.map (·.later n)) body :=
  List.forall₂_map_left_iff.mpr (List.forall₂_same.mpr fun _ _ => ⟨rfl, rfl⟩)

section Technical
variable (hT : ∀ {e}, T.Raises e → e.IsTechnical) (hdict : s.dictionary.Sound)
include hT hdict

theorem define_later (name : String) (body : List Token) (fault : Option CompileError) :
    define name (body.map (·.later n)) (fault.map (·.lower n)) s =
      complaining (·.lower n) (define name body fault s) := by
  rw [define_eq, define_eq, readBody_of_alike (alike_later n body)]
  cases hread : readBody s.dictionary body {} with
  | error e draft =>
    have hsame := CompileError.lower_of_not_isAbrupt (not_isAbrupt_of_readBody hdict hread) n
    simp only [complaining, hsame]
  | ok u draft =>
    cases fault with
    | some e => rfl
    | none =>
      simp only [Option.map_none, toDefinition_of_alike (alike_later n body)]
      cases hg : generate (draft.toDefinition name body) (s.functions.push none) s.target with
      | ok function target => rfl
      | error e target =>
        have hsame := CompileError.lower_of_not_isAbrupt (not_isAbrupt_of_generate hT hg) n
        simp only [complaining, hsame]

/-- What a session does with a phrase hangs on the place of the phrase in its complaint only. -/
theorem perform_later (position : Nat) (p : Phrase) :
    perform (position + k) (p.later n) s =
      complaining (p.displaced k n) (perform position p s) := by
  have hlower : ∀ {p : Phrase}, p.fault? = none → ∀ {e s'}, perform position p s = .error e s' →
      e.lower n = e := by
    intro p hp e s' h
    rcases perform_error hT hdict h with hfault | habrupt
    · cases hp.symm.trans hfault
    · exact CompileError.lower_of_not_isAbrupt habrupt n
  cases p with
  | definition name body fault => exact define_later n hT hdict name body fault
  | declaration name inputs outputs =>
    cases h : perform position (.declaration name inputs outputs) s with
    | ok u s' => exact h
    | error e s' =>
      simp only [complaining, Phrase.displaced, hlower rfl h]
      exact h
  | see name =>
    cases h : perform position (.see name) s with
    | ok u s' => exact h
    | error e s' =>
      simp only [complaining, Phrase.displaced, hlower rfl h]
      exact h
  | token t =>
    obtain ⟨result, hx, hresult⟩ := exists_execution s t
    have hplace : ∀ position, executeToken (t.later n) position s = result position := hresult
    simp only [Phrase.later, perform, hplace, hresult]
    cases hx with
    | done => rfl
    | refused e hargs he =>
      have hsame : (Phrase.token t).displaced k n e = e := he.behind_eq k
      simp only [complaining, hsame]
    | mismatched => rfl
    | called function rest hs =>
      dsimp only
      cases hcall : T.execute function (s.arguments t) s.target with
      | ok results target => rfl
      | error e target =>
        have hsame : (Phrase.token t).displaced k n e = e := (hT (.execute hcall)).behind_eq k
        simp only [complaining, hsame]
    | unfilled => rfl

end Technical

/-! ### Runs -/

def displaced (c : Cursor) (s : Session T) (e : CompileError) : CompileError :=
  match c.nextPhrase s.seesNext with
  | .ok (some (p, _)) => p.displaced k n e
  | _ => e.lower n

theorem nextPhrase_later (s : Session T) (c : Cursor) : (c.later k n).nextPhrase s.seesNext =
    moved n (Option.map (Cursor.laterPhrase k n)) (c.nextPhrase s.seesNext) := by
  have hsees : ∀ t : Token, s.seesNext (t.later n) = s.seesNext t := fun _ => rfl
  exact Cursor.nextPhrase_later k n hsees c

theorem runFrom_later {I : Knowledge T} (hI : Tidy I) (c : Cursor) (hs : Holds I s) :
    runFrom (c.later k n) s =
      complaining ((halt c s).2.displaced k n (halt c s).1) (runFrom c s) := by
  fun_induction runFrom c s with
  | case1 c s e hn =>
    have hlater := nextPhrase_later k n s c
    rw [hn] at hlater
    rw [runFrom_of_error hlater, halt_of_error hn]
    simp only [complaining, displaced, hn]
  | case2 c s hn =>
    have hlater := nextPhrase_later k n s c
    rw [hn] at hlater
    rw [runFrom_of_end hlater]
    rfl
  | case3 c s p rest hn e s' hp =>
    have hlater := nextPhrase_later k n s c
    have hperform : perform (c.later k n).consumed (p.later n) s = _ :=
      perform_later k n hI.technical (hI.sound hs) c.consumed p
    rw [hn] at hlater
    rw [hp] at hperform
    rw [runFrom_of_phrase hlater, halt_of_phrase hn, hp]
    refine (Action.bind_of_error hperform _).trans ?_
    simp only [complaining, displaced, hn]
  | case4 c s p rest hn u s' hp ih =>
    have hlater := nextPhrase_later k n s c
    have hperform : perform (c.later k n).consumed (p.later n) s = _ :=
      perform_later k n hI.technical (hI.sound hs) c.consumed p
    rw [hn] at hlater
    rw [hp] at hperform
    rw [runFrom_of_phrase hlater, halt_of_phrase hn, hp]
    refine (Action.bind_of_ok hperform _).trans ?_
    exact ih ((outlasts_perform hI.toLasting c.consumed p).ok hs hp)

/-- A run hangs on the tokens to come, and on how many there have been. -/
theorem runFrom_congr {c c' : Cursor} (hn : c.next = c'.next) (hc : c.consumed = c'.consumed) :
    runFrom c s = runFrom c' s := by
  have hphrase : c.nextPhrase s.seesNext = c'.nextPhrase s.seesNext := by
    unfold Cursor.nextPhrase
    rw [hn]
  cases h : c'.nextPhrase s.seesNext with
  | error e => rw [runFrom_of_error (hphrase.trans h), runFrom_of_error h]
  | ok read =>
    cases read with
    | none => rw [runFrom_of_end (hphrase.trans h), runFrom_of_end h]
    | some x => rw [runFrom_of_phrase (hphrase.trans h), runFrom_of_phrase h, hc]

/-- A run that comes to the end of a text goes on with the next line. -/
theorem runFrom_followedBy (more : List Char) (c : Cursor) (h : runFrom c s = .ok u s')
    (hclosed : (halt c s).1.endsInComment = false) :
    runFrom (c.followedBy more) s = runFrom ((halt c s).1.nextLine more) s' := by
  fun_induction runFrom c s with
  | case1 => cases h
  | case2 c s hn =>
    cases h
    rw [halt_of_end hn] at hclosed ⊢
    have hend := Cursor.next_of_nextPhrase_end hn
    exact runFrom_congr (Cursor.next_followedBy_of_end more hend hclosed) rfl
  | case3 => cases h
  | case4 c s p rest hn u s' hp ih =>
    rw [halt_of_phrase hn, hp] at hclosed ⊢
    have hmore := Cursor.nextPhrase_followedBy more hn (fault?_of_perform hp)
    have hsame : perform (c.followedBy more).consumed p s = .ok u s' := hp
    rw [runFrom_of_phrase hmore, Action.bind_of_ok hsame]
    exact ih h hclosed

theorem last_halt (c : Cursor) (s : Session T) : (halt c s).1.last = c.last :=
  halt_induction (P := fun d _ => d.last = c.last)
    (fun h hn _ => (Cursor.last_nextPhrase hn).trans h) rfl

/-- A text that is cut between two lines, where the first piece runs to its end and leaves no comment
open, does the same in one go as in two: the session is the same afterwards, and so is the outcome,
but that a complaint about the second piece counts the tokens and the lines of the first. -/
theorem run_append (hs : Live s) {first second : String} (h : run first s = .ok u s')
    (hclosed : (halt (.ofText first) s).1.endsInComment = false) :
    run (first ++ "\n" ++ second) s =
      let (c, before) := halt (.ofText second) s'
      complaining (before.displaced (halt (.ofText first) s).1.consumed
        (first.toList.count '\n' + 1) c) (run second s') := by
  obtain ⟨I, hI, hholds, hquiet⟩ := hs.tidy
  obtain ⟨s₁, hrun, rfl⟩ := run_eq_ok.mp h
  have hhalt : (halt (.ofText first) s).2 = s₁ := by
    have hends := ends_halt (.ofText first) s
    rw [hrun] at hends
    generalize (halt (.ofText first) s).2 = before at hends
    cases hends
    rfl
  obtain ⟨hholds₁, hquiet₁⟩ := quiet_halt hI (c := .ofText first) hholds hquiet
  rw [hhalt] at hholds₁ hquiet₁
  rw [takeOver_of_quiet hquiet₁]
  have hwhole : Cursor.ofText (first ++ "\n" ++ second) =
      (Cursor.ofText first).followedBy second.toList := by
    simp [Cursor.ofText, Cursor.followedBy]
  have hnext := Cursor.nextLine_ofText second.toList (last_halt (.ofText first) s)
  have hfrom : runFrom (.ofText (first ++ "\n" ++ second)) s =
      complaining ((halt (.ofText second) s₁).2.displaced (halt (.ofText first) s).1.consumed
        (first.toList.count '\n' + 1) (halt (.ofText second) s₁).1)
        (runFrom (.ofText second) s₁) := by
    rw [hwhole, runFrom_followedBy second.toList _ hrun hclosed, hnext]
    exact runFrom_later _ _ hI _ hholds₁
  unfold run
  rw [hfrom]
  cases runFrom (.ofText second) s₁ <;> rfl

def twoLines : String := "1 2 \\ two numbers\n: sq dup * ; sq \\ four"

def misplaced : String := "sq . \"x\" sq"

theorem run_append_squaring :
    let s := ofText ": sq dup + ; 5"
    let s' := ((run twoLines).attempt s).2
    ((run twoLines).attempt s).1 = .ok () ∧
      (halt (.ofText twoLines) s).1.endsInComment = false ∧
      ((run misplaced).attempt s').1 = .error (.typeMismatch "sq" 3 .int32 .string) ∧
      run (twoLines ++ "\n" ++ misplaced) s =
        .error (.typeMismatch "sq" 11 .int32 .string) ((run misplaced).attempt s').2 := by
  intro s s'
  have hfirst : ((run twoLines).attempt s).1 = .ok () := by decide +kernel
  have hclosed : (halt (.ofText twoLines) s).1.endsInComment = false := by decide +kernel
  have hsecond : ((run misplaced).attempt s').1 = .error (.typeMismatch "sq" 3 .int32 .string) := by
    decide +kernel
  have hplace : (halt (.ofText misplaced) s').2.displaced (halt (.ofText twoLines) s).1.consumed
      (twoLines.toList.count '\n' + 1) (halt (.ofText misplaced) s').1
      (.typeMismatch "sq" 3 .int32 .string) = .typeMismatch "sq" 11 .int32 .string := by
    decide +kernel
  have hwhole : run (twoLines ++ "\n" ++ misplaced) s = _ :=
    run_append (.executing (reachable_ofText _)) (Action.attempt_eq_ok.mp hfirst) hclosed
  refine ⟨hfirst, hclosed, hsecond, hwhole.trans ?_⟩
  dsimp only
  rw [Action.attempt_eq_error.mp hsecond, complaining, hplace]

end Session
end StackEffect
