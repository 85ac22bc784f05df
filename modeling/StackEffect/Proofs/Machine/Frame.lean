import StackEffect.Proofs.Machine.Depth

/-!
Old code is never touched. Whatever a session is given, its words keep their places, their kinds and
their functions, and routines that are there stay as they are (`Extends`). What the routine of a word
does hangs on these only, so that it does the same for good (`observe_run`).
-/
namespace StackEffect
namespace Machine

/-- What a routine answers, and the text that it prints meanwhile. -/
def observe (m : Machine) (r : RoutineId) (arguments : List Value) :
    Except CompileError (List Value) × String :=
  let (result, m) := (execute r arguments).attempt { m with output := "" }
  (result, m.output)

theorem observe_eq (m : Machine) (r : RoutineId) (arguments : List Value) :
    m.observe r arguments = (callWithin m.routines (maxCallDepth + 1) r arguments).attempt "" := by
  unfold observe Action.attempt
  rw [execute_apply]
  cases callWithin m.routines (maxCallDepth + 1) r arguments "" <;> rfl

/-- Words, code and functions that are in the first are in the second; only marks as inline may
differ. -/
structure Extends (d : Dictionary) (m : Machine) (functions : FunctionTable Machine.target)
    (d' : Dictionary) (m' : Machine) (functions' : FunctionTable Machine.target) : Prop where
  size : d.size ≤ d'.size
  words : ∀ {id w}, d.word? id = some w → ∃ isInline, d'.word? id = some { w with isInline }
  routines : ∀ {r : Nat} {routine}, m.routines[r]? = some routine → m'.routines[r]? = some routine
  functions : ∀ {id}, id < d.size → functions'[id]? = functions[id]?

namespace Extends
variable {d d' : Dictionary} {m m' : Machine} {functions functions' : FunctionTable Machine.target}

theorem refl (d : Dictionary) (m : Machine) (functions : FunctionTable Machine.target) :
    Extends d m functions d m functions where
  size := Nat.le_refl _
  words {_ w} hw := ⟨w.isInline, hw⟩
  routines hr := hr
  functions _ := rfl

theorem enter {m'' : Machine} {functions'' : FunctionTable Machine.target}
    (h : Extends d m functions d' m' functions') (w : Word)
    (hroutines : ∀ {r : Nat} {routine}, m'.routines[r]? = some routine →
      m''.routines[r]? = some routine)
    (hfunctions : ∀ id < d'.size, functions''[id]? = functions'[id]?) :
    Extends d m functions (d'.enter w) m'' functions'' where
  size := by
    rw [Dictionary.size_enter]
    exact Nat.le_succ_of_le h.size
  words hv := (h.words hv).imp fun _ hv' => Dictionary.word?_enter_of_some w hv'
  routines hr := hroutines (h.routines hr)
  functions hid := (hfunctions _ (Nat.lt_of_lt_of_le hid h.size)).trans (h.functions hid)

theorem of_routines {m'' : Machine} (h : Extends d m functions d' m' functions')
    (hm : m''.routines = m'.routines) : Extends d m functions d' m'' functions' where
  size := h.size
  words := h.words
  routines hr := by rw [hm, h.routines hr]
  functions := h.functions

theorem markInline (h : Extends d m functions d' m' functions') (i : WordId) :
    Extends d m functions (d'.markInline i) m' functions' where
  size := by
    rw [Dictionary.markInline, Dictionary.size_modify]
    exact h.size
  words {id _} hw := by
    obtain ⟨isInline, hw'⟩ := h.words hw
    rw [Dictionary.markInline, Dictionary.word?_modify, hw']
    by_cases hi : i = id
    · exact ⟨true, by rw [if_pos hi]; rfl⟩
    · exact ⟨isInline, by rw [if_neg hi]⟩
  routines := h.routines
  functions := h.functions

end Extends

/-- Nothing that a session can be given takes away what it has. -/
theorem lasting_extends (d : Dictionary) (m : Machine) (functions : FunctionTable Machine.target) :
    Session.Lasting (T := Machine.target) fun d' m' functions' =>
      Linked d' m' functions' ∧ Extends d m functions d' m' functions' where
  markInline id h := ⟨lasting_linked.markInline id h.1, h.2.markInline id⟩
  execute function arguments h := ⟨lasting_linked.execute function arguments h.1,
    h.2.of_routines (routines_execute function arguments _)⟩
  takeOutput h := ⟨lasting_linked.takeOutput h.1, h.2.of_routines rfl⟩
  declare h hv hd := by
    refine ⟨lasting_linked.declare h.1 hv hd, ?_⟩
    cases hd
    exact h.2.enter _ (fun hr => getElem?_routines_push hr _)
      fun id hid => getElem?_functions_push h.1 hid _
  declareFailed _ hd := by cases hd
  abandon name h := ⟨lasting_linked.abandon name h.1,
    h.2.enter _ (fun hr => hr) fun id hid => getElem?_functions_push h.1 hid _⟩
  define h hread hg := by
    refine ⟨lasting_linked.define h.1 hread hg, ?_⟩
    obtain ⟨s, b, -, rfl, -, rfl⟩ :=
      generate_eq_ok (Session.sound_toDefinition h.1.sound hread) hg
    exact h.2.enter _ (fun hr => getElem?_routines_push hr _)
      fun id hid => getElem?_functions_complete h.1 hid _
  defineFailed h hread hg := ⟨lasting_linked.defineFailed h.1 hread hg,
    h.2.enter _ (fun hr => generate_error hg hr) fun id hid => getElem?_functions_push h.1 hid _⟩

end Machine

namespace Session

theorem extends_run {s : Session Machine.target} (h : Reachable ({} : Machine) s) (text : String) :
    Machine.Extends s.dictionary s.target s.functions ((run text).attempt s).2.dictionary
      ((run text).attempt s).2.target ((run text).attempt s).2.functions :=
  ((outlasts_run (Machine.lasting_extends s.dictionary s.target s.functions) text).attempt
    ⟨h.linked, .refl _ _ _⟩).2

/-- A definition is for good: after any text, whatever it redefines or marks inline and however it
ends, the definition is the same and its function answers and prints the same. -/
theorem observe_run {s : Session Machine.target} (h : Reachable ({} : Machine) s) {id : WordId}
    {w : Word} {f : Definition} (hw : s.dictionary.word? id = some w) (hk : w.kind = .compiled f)
    (text : String) :
    let later := ((run text).attempt s).2
    (∃ isInline, later.dictionary.word? id = some { w with isInline }) ∧
      ∃ r, s.functions[id]? = some (some r) ∧ later.functions[id]? = some (some r) ∧
        ∀ arguments, later.target.observe r arguments = s.target.observe r arguments := by
  intro later
  have hextends := extends_run h text
  have hu : w.isUser = true := Word.isUser_iff.mpr (.inr ⟨f, hk⟩)
  obtain ⟨r, routine, hr, -⟩ := h.linked.exists_routine hw hu
  refine ⟨hextends.words hw, r, hr, ?_, fun arguments => ?_⟩
  · rw [hextends.functions (Dictionary.lt_size_of_word? hw), hr]
  · rw [Machine.observe_eq, Machine.observe_eq,
      Machine.callWithin_congr h.linked hextends.routines _ hw hu hr]

def shouting : Session Machine.target :=
  ofText "extern print-int ( i -- ) : sq dup * ; : shout sq dup print-int ;"

def renewal : String :=
  "extern print-int ( f -- ) : sq dup + ; inline : shout sq ; inline : shout sq"

theorem observe_run_shouting : ∃ w f, shouting.dictionary.word? 25 = some w ∧ w.kind = .compiled f ∧
    let later := ((run renewal).attempt shouting).2
    (∃ isInline, later.dictionary.word? 25 = some { w with isInline }) ∧
      ∃ r, shouting.functions[25]? = some (some r) ∧ later.functions[25]? = some (some r) ∧
        ∀ arguments, later.target.observe r arguments = shouting.target.observe r arguments := by
  have hlatest : shouting.dictionary.latestDefinition = some 25 := by decide +kernel
  obtain ⟨w, f, hw, -, hk⟩ := Dictionary.latestDefinition_eq_some hlatest
  exact ⟨w, f, hw, hk, observe_run (reachable_ofText _) hw hk renewal⟩

end Session
end StackEffect
