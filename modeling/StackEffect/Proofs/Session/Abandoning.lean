import StackEffect.Proofs.Machine.Linking
import StackEffect.Proofs.Module.Linking
import StackEffect.Proofs.Session.Complaint

/-!
Definitions and declarations that are given up. For both targets of this project, code that could not be
generated leaves nothing behind (`Tidy`), and all that executed code has printed has been taken over
when the next phrase is read (`quiet_halt`). What a definition or a declaration has changed when it fails
is then out of sight (`untouched_of_run_error`).
-/
namespace StackEffect

/-- Executed code has printed nothing that is still to be taken over. -/
def Target.Quiet (T : Target) (target : T.State) : Prop := T.takeOutput target = ("", target)

theorem Machine.quiet_iff {m : Machine} : Machine.target.Quiet m ↔ m.output = "" := by
  obtain ⟨routines, building, output⟩ := m
  constructor
  · exact congrArg Prod.fst
  · rintro rfl
    rfl

namespace Session
variable {T : Target} {s s' : Session T} {e : CompileError} {u : Unit}

theorem takeOver_of_quiet (h : T.Quiet s.target) : s.takeOver = s := by
  have hquiet : T.takeOutput s.target = ("", s.target) := h
  unfold takeOver
  rw [hquiet]
  simp

/-- What is known makes the target a tidy one: if it fails to generate code it is left as it is. -/
structure Tidy (I : Knowledge T) : Prop extends Lasting I where
  sound : ∀ {d t f}, I d t f → d.Sound
  technical : ∀ {e}, T.Raises e → e.IsTechnical
  undeclared : ∀ {name symbol signature t e t'}, T.declare name symbol signature t = .error e t' →
    t' = t
  ungenerated : ∀ {d t f name body draft e t'}, I d t f → readBody d body {} = .ok () draft →
    generate (draft.toDefinition name body) (f.push none) t = .error e t' → t' = t
  quietDeclare : ∀ {name symbol signature t function t'},
    T.declare name symbol signature t = .ok function t' → T.Quiet t → T.Quiet t'
  quietGenerate : ∀ {d t f name body draft function t'}, I d t f →
    readBody d body {} = .ok () draft →
    generate (draft.toDefinition name body) (f.push none) t = .ok function t' → T.Quiet t →
    T.Quiet t'
  quietTakeOutput : ∀ t, T.Quiet (T.takeOutput t).2

theorem tidy_machine : Tidy (T := Machine.target) Machine.Linked where
  toLasting := Machine.lasting_linked
  sound h := h.sound
  technical := Machine.isTechnical_of_raises
  undeclared hd := by cases hd
  ungenerated h hread hg := by
    obtain ⟨r, m, hok⟩ := Machine.exists_generate h (sound_toDefinition h.sound hread)
    cases hok.symm.trans hg
  quietDeclare hd hq := by
    cases hd
    have houtput := Machine.quiet_iff.mp hq
    exact Machine.quiet_iff.mpr houtput
  quietGenerate h hread hg hq := by
    obtain ⟨signature, b, -, -, -, rfl⟩ :=
      Machine.generate_eq_ok (sound_toDefinition h.sound hread) hg
    have houtput := Machine.quiet_iff.mp hq
    exact Machine.quiet_iff.mpr houtput
  quietTakeOutput _ := rfl

theorem tidy_module : Tidy (T := IRModule.target) IRModule.Linked where
  toLasting := IRModule.lasting_linked
  sound h := h.sound
  technical := IRModule.isTechnical_of_raises
  undeclared {name _ _ _ _ _} hd := (IRModule.declare_eq_error name hd).1
  ungenerated h hread hg := (h.generate_eq_error hread hg).1
  quietDeclare _ _ := rfl
  quietGenerate _ _ _ _ := rfl
  quietTakeOutput _ := rfl

section Tidy
variable {I : Knowledge T} (hI : Tidy I)
include hI

/-! ### Output that has been taken over -/

theorem quiet_run (text : String) (s : Session T) : T.Quiet ((run text).attempt s).2.target := by
  unfold Action.attempt run
  cases runFrom (.ofText text) s <;> exact hI.quietTakeOutput _

theorem quiet_of_reachable {target : T.State} (hq : T.Quiet target) (h : Reachable target s) :
    T.Quiet s.target := by
  induction h with
  | run text _ _ => exact quiet_run hI text _
  | takeOutput _ ih => exact ih
  | @start config s h =>
    have hdeclare : ∀ name symbol signature, (declareExternal name symbol signature).Keeps
        (fun s : Session T => T.Quiet s.target) fun _ => True := by
      intro name symbol signature s hs
      rw [declareExternal_eq]
      cases hd : T.declare name symbol signature s.target with
      | ok function target => exact hI.quietDeclare hd hs
      | error e target =>
        obtain rfl := hI.undeclared hd
        exact ⟨hs, trivial⟩
    have hall := Action.Keeps.forM (fun w : ExternalWord =>
      .bind (.ofExcept (r := w.signature) fun _ _ => trivial) fun signature =>
        (hdeclare w.name w.linkSymbol signature).discard) config.externals
    simp only [ofConfig] at h
    split at h
    · rename_i hd
      cases h
      have hs := hall.ok hq hd
      exact hs
    · cases h

theorem quiet_perform {position : Nat} {phrase : Phrase} (hs : Holds I s) (hq : T.Quiet s.target)
    (h : perform position phrase s = .ok u s') : T.Quiet s'.target := by
  cases phrase with
  | definition name body fault =>
    obtain ⟨draft, function, target, hread, hg, rfl⟩ := define_eq_ok h
    exact hI.quietGenerate hs hread hg hq
  | declaration name inputs outputs =>
    obtain ⟨signature, function, target, hd, rfl⟩ := declare_eq_ok h
    exact hI.quietDeclare hd hq
  | see name =>
    rcases see_cases name s with hs | ⟨output, hs⟩ <;> cases hs.symm.trans h
    exact hq
  | token t =>
    obtain ⟨result, hx, hresult⟩ := exists_execution s t
    rw [perform, hresult] at h
    cases hx with
    | done =>
      cases h
      exact hq
    | refused => cases h
    | mismatched => cases h
    | called function rest hs =>
      dsimp only at h
      split at h <;> cases h
      exact hI.quietTakeOutput _
    | unfilled => cases h

theorem quiet_halt {c : Cursor} (hs : Holds I s) (hq : T.Quiet s.target) :
    Holds I (halt c s).2 ∧ T.Quiet (halt c s).2.target :=
  halt_induction (P := fun _ s => Holds I s ∧ T.Quiet s.target)
    (fun h _ hp => ⟨(outlasts_perform hI.toLasting _ _).ok h.1 hp, quiet_perform hI h.1 h.2 hp⟩)
    ⟨hs, hq⟩

end Tidy

/-! ### Live sessions -/

/-- A session of one of the targets of this project, whatever texts it has been given. -/
inductive Live : {T : Target} → Session T → Prop
  | executing {s : Session Machine.target} : Reachable ({} : Machine) s → Live s
  | generating {name triple : String} {s : Session IRModule.target} :
      Reachable ({ name, triple } : IRModule) s → Live s

theorem Live.tidy (h : Live s) : ∃ I : Knowledge T, Tidy I ∧ Holds I s ∧ T.Quiet s.target := by
  cases h with
  | executing h =>
    exact ⟨Machine.Linked, tidy_machine, h.linked,
      quiet_of_reachable tidy_machine (Machine.quiet_iff.mpr rfl) h⟩
  | generating h =>
    exact ⟨IRModule.Linked, tidy_module, h.linked_module, quiet_of_reachable tidy_module rfl h⟩

/-! ### What is left of a phrase that fails -/

/-- All that can be seen of the session is the same: what its words are and mean, the stack, what has
been printed, and the code. -/
structure Untouched (s s' : Session T) : Prop where
  visible : s'.dictionary.visible = s.dictionary.visible
  find : ∀ name, s'.dictionary.find name = s.dictionary.find name
  functions : ∀ id < s.functions.size, s'.functions[id]? = s.functions[id]?
  stack : s'.stack = s.stack
  output : s'.output = s.output
  target : s'.target = s.target

/-- A definition that is given up leaves a hidden word and an empty place for its function. -/
theorem untouched_abandoned (s : Session T) (name : String) (draft : Draft) :
    Untouched s (s.abandoned name draft s.target) where
  visible := Dictionary.visible_enter_hidden _ rfl
  find := Dictionary.find_enter_hidden rfl
  functions _ hid := getElem?_push_of_lt hid none
  stack := rfl
  output := rfl
  target := rfl

theorem Untouched.ended (h : Untouched s s') (hq : T.Quiet s.target) :
    Untouched s s'.reset.takeOver := by
  have hquiet : T.Quiet s'.reset.target := h.target ▸ hq
  rw [takeOver_of_quiet hquiet]
  exact ⟨h.visible, h.find, h.functions, h.stack, h.output, h.target⟩

theorem untouched_of_perform_error {I : Knowledge T} (hI : Tidy I) (hs : Holds I s) {position : Nat}
    {phrase : Phrase} (hphrase : (∃ name body fault, phrase = .definition name body fault) ∨
      ∃ name inputs outputs, phrase = .declaration name inputs outputs)
    (h : perform position phrase s = .error e s') : Untouched s s' := by
  rcases hphrase with ⟨name, body, fault, rfl⟩ | ⟨name, inputs, outputs, rfl⟩
  · rcases define_eq_error h with ⟨draft, -, rfl⟩ | ⟨draft, -, -, rfl⟩ |
      ⟨draft, target, hread, -, hg, rfl⟩
    · exact untouched_abandoned s name draft
    · exact untouched_abandoned s name draft
    · obtain rfl := hI.ungenerated hs hread hg
      exact untouched_abandoned s name {}
  · obtain ⟨target, rfl, htarget⟩ := declare_eq_error h
    have hsame : target = s.target := by
      rcases htarget with ⟨-, hsame⟩ | ⟨signature, hd⟩
      · exact hsame
      · exact hI.undeclared hd
    subst hsame
    exact ⟨rfl, fun _ => rfl, fun _ _ => rfl, rfl, rfl, rfl⟩

theorem opened_of_nextPhrase {c after rest : Cursor} {sees : Token → Bool} {t : Token}
    {phrase : Phrase} (ht : c.next = .ok (some (t, after)))
    (hopens : t.isWord ":" = true ∨ t.isWord "extern" = true)
    (h : c.nextPhrase sees = .ok (some (phrase, rest))) :
    (∃ name body fault, phrase = .definition name body fault) ∨
      ∃ name inputs outputs, phrase = .declaration name inputs outputs := by
  cases Cursor.reads_of_nextPhrase h with
  | definition => exact .inl ⟨_, _, _, rfl⟩
  | unended => exact .inl ⟨_, _, _, rfl⟩
  | declaration => exact .inr ⟨_, _, _, rfl⟩
  | see hn hcolon hexternal =>
    cases ht.symm.trans hn
    simp [hcolon, hexternal] at hopens
  | token hn hcolon hexternal =>
    cases ht.symm.trans hn
    simp [hcolon, hexternal] at hopens

/-- A run that fails inside a definition or a declaration, at any point and for any reason, leaves
everything that can be seen as it is in front of it. -/
theorem untouched_of_run_error (hs : Live s) {text : String} (h : run text s = .error e s')
    {t : Token} {after : Cursor} (ht : (halt (.ofText text) s).1.next = .ok (some (t, after)))
    (hopens : t.isWord ":" = true ∨ t.isWord "extern" = true) :
    Untouched (halt (.ofText text) s).2 s' := by
  obtain ⟨I, hI, hholds, hquiet⟩ := hs.tidy
  obtain ⟨hholds, hquiet⟩ := quiet_halt hI (c := .ofText text) hholds hquiet
  obtain ⟨s₁, hrun, rfl⟩ := run_eq_error.mp h
  have hends := ends_halt (.ofText text) s
  rw [hrun] at hends
  refine Untouched.ended ?_ hquiet
  cases hends with
  | unread hn => exact ⟨rfl, fun _ => rfl, fun _ _ => rfl, rfl, rfl, rfl⟩
  | failed hn hp => exact untouched_of_perform_error hI hholds (opened_of_nextPhrase ht hopens hn) hp

def openEnded : String := "1 2 + . : same dup ; 7"

def halfDeclared : String := "1 2 + . extern sq ( i i"

theorem untouched_of_run_error_openEnded :
    let s := ofModuleText "extern f ( i -- i ) : sq dup * f ; \"kept\""
    let s' := ofText "extern f ( i -- i ) : sq dup * f ; \"kept\""
    ((run openEnded).attempt s).1 = .error (.unsupported (.loweringType .any)) ∧
      Untouched (halt (.ofText openEnded) s).2 ((run openEnded).attempt s).2 ∧
      ((run halfDeclared).attempt s').1 = .error (.arity "extern" (.declaration .unterminated)) ∧
      Untouched (halt (.ofText halfDeclared) s').2 ((run halfDeclared).attempt s').2 := by
  intro s s'
  have hopen : ((run openEnded).attempt s).1 = .error (.unsupported (.loweringType .any)) := by
    decide +kernel
  have hhalf : ((run halfDeclared).attempt s').1 =
      .error (.arity "extern" (.declaration .unterminated)) := by decide +kernel
  have hcolon : (halt (.ofText openEnded) s).1.next = .ok (some (⟨":", none, ⟨1, 9⟩⟩,
      { rest := " same dup ; 7".toList, place := ⟨1, 10⟩, consumed := 5 })) := by decide +kernel
  have hexternal : (halt (.ofText halfDeclared) s').1.next = .ok (some (⟨"extern", none, ⟨1, 9⟩⟩,
      { rest := " sq ( i i".toList, place := ⟨1, 15⟩, consumed := 5 })) := by decide +kernel
  have hs : Live s := .generating (reachable_ofModuleText _)
  have hs' : Live s' := .executing (reachable_ofText _)
  exact ⟨hopen,
    untouched_of_run_error hs (Action.attempt_eq_error.mp hopen) hcolon (.inl rfl),
    hhalf,
    untouched_of_run_error hs' (Action.attempt_eq_error.mp hhalf) hexternal (.inr rfl)⟩

end Session
end StackEffect
