import StackEffect.Compiler
import StackEffect.Proofs.Session.Executing

/-!
Reachable sessions: what a fresh session can become by the texts that it is given, whether or not
they run to their end. What a session knows changes at few points only; a property that outlasts
each of them (`Lasting`) holds of every reachable session (`Reachable.holds`).
-/
namespace StackEffect

/-- No type of the signature stands for the lack of a value. -/
def Signature.Valued (s : Signature) : Prop := .null ∉ s.inputs ∧ .null ∉ s.outputs

theorem ValueType.null_not_mem_of_ofCodes {word : String} {codes : List String}
    {types : List ValueType} (h : ofCodes word codes = .ok types) : .null ∉ types := by
  intro hmem
  obtain ⟨i, hi⟩ := List.mem_iff_getElem?.mp hmem
  obtain ⟨code, -, hcode⟩ := Pointwise.left_of_right (Except.mapM_eq_ok.mp h) hi
  split at hcode
  · rename_i htype
    cases hcode
    have hletter := List.mem_of_find?_eq_some htype
    simp at hletter
  · cases hcode

theorem Signature.valued_of_ofCodes {word inputs outputs : String} {s : Signature}
    (h : ofCodes word inputs outputs = .ok s) : s.Valued := by
  obtain ⟨types, hi, h⟩ := Except.bind_eq_ok.mp h
  obtain ⟨types', ho, h⟩ := Except.bind_eq_ok.mp h
  cases h
  exact ⟨ValueType.null_not_mem_of_ofCodes hi, ValueType.null_not_mem_of_ofCodes ho⟩

namespace Session
variable {T : Target}

/-- The sessions that come from a target by texts and by taking what has been printed. -/
inductive Reachable (target : T.State) : Session T → Prop
  | start {config : Config} {s : Session T} : ofConfig target config = .ok s → Reachable target s
  | run {s : Session T} (text : String) : Reachable target s →
      Reachable target (Action.attempt (run text) s).2
  | takeOutput {s : Session T} : Reachable target s → Reachable target s.takeOutput.2

theorem afterRun_eq_ok {s s' : Session T} {text : String} :
    s.afterRun text = .ok s' ↔ run text s = .ok () s' := by
  unfold Session.afterRun
  cases run text s <;> simp

theorem Reachable.afterRun {target : T.State} {s s' : Session T} {text : String}
    (h : Reachable target s) (hrun : s.afterRun text = .ok s') : Reachable target s' := by
  have h' := h.run text
  rw [Action.attempt, afterRun_eq_ok.mp hrun] at h'
  exact h'

/-- What a fresh session that executes its code becomes by a text. -/
def ofText (text : String) : Session Machine.target :=
  (Action.attempt (Session.run text) (ofTarget ({} : Machine))).2

theorem reachable_ofText (text : String) : Reachable ({} : Machine) (ofText text) :=
  .run text (.start (rfl : ofConfig _ {} = _))

def wordToken (text : String) : Token := { text, literal := none, place := {} }

/-- What is known of words, of the target and of the functions of the words. -/
abbrev Knowledge (T : Target) := Dictionary → T.State → FunctionTable T → Prop

def Holds (I : Knowledge T) (s : Session T) : Prop := I s.dictionary s.target s.functions

/-- The points at which words, target and functions change. -/
structure Lasting (I : Knowledge T) : Prop where
  markInline : ∀ {d t f} (id : WordId), I d t f → I (d.markInline id) t f
  execute : ∀ {d t f} (function : T.Function) (arguments : List Value), I d t f →
    I d (Action.attempt (T.execute function arguments) t).2 f
  takeOutput : ∀ {d t f}, I d t f → I d (T.takeOutput t).2 f
  declare : ∀ {d t f name symbol signature function t'}, I d t f → signature.Valued →
    T.declare name symbol signature t = .ok function t' →
    I (d.enter (.external name symbol signature)) t' (f.push (some function))
  declareFailed : ∀ {d t f name symbol signature e t'}, I d t f →
    T.declare name symbol signature t = .error e t' → I d t' f
  abandon : ∀ {d t f} (name : String), I d t f → I (d.enter (.pending name)) t (f.push none)
  define : ∀ {d t f name body draft function t'}, I d t f → readBody d body {} = .ok () draft →
    generate (draft.toDefinition name body) (f.push none) t = .ok function t' →
    I (d.enter (.compiled name (draft.toDefinition name body))) t'
      ((f.push none).setIfInBounds d.size (some function))
  defineFailed : ∀ {d t f name body draft e t'}, I d t f → readBody d body {} = .ok () draft →
    generate (draft.toDefinition name body) (f.push none) t = .error e t' →
    I (d.enter (.pending name)) t' (f.push none)

/-- What holds of a session holds after the action too, also when it fails. -/
abbrev Outlasts {α : Type} (I : Knowledge T) (x : Action (Session T) α) : Prop :=
  x.Keeps (Holds I) fun _ => True

section Lasting
variable {I : Knowledge T}

variable (hI : Lasting I)
include hI

theorem outlasts_declareExternal (name symbol : String) {signature : Signature}
    (hv : signature.Valued) : Outlasts I (declareExternal name symbol signature) := by
  intro s hs
  rw [declareExternal_eq]
  cases h : T.declare name symbol signature s.target with
  | ok function target => exact hI.declare hs hv h
  | error e target => exact ⟨hI.declareFailed hs h, trivial⟩

theorem outlasts_define (name : String) (body : List Token) (fault : Option CompileError) :
    Outlasts I (define name body fault) := by
  intro s hs
  rw [define_eq]
  cases hread : readBody s.dictionary body {} with
  | error e draft => exact ⟨hI.abandon name hs, trivial⟩
  | ok u draft =>
    cases fault with
    | some e => exact ⟨hI.abandon name hs, trivial⟩
    | none =>
      simp only
      cases h : generate (draft.toDefinition name body) (s.functions.push none) s.target with
      | ok function target => exact hI.define hs hread h
      | error e target => exact ⟨hI.defineFailed hs hread h, trivial⟩

theorem outlasts_declare (name : String) (inputs outputs : List String) :
    Outlasts I (declare name inputs outputs) := by
  refine .bind (.modify fun _ hs => hs) fun _ => ?_
  refine .ofExcept_bind (fun _ _ => trivial) fun _ hi => ?_
  refine .ofExcept_bind (fun _ _ => trivial) fun _ ho => ?_
  have hv : Signature.Valued ⟨_, _⟩ :=
    ⟨ValueType.null_not_mem_of_ofCodes hi, ValueType.null_not_mem_of_ofCodes ho⟩
  exact .bind (.discard (outlasts_declareExternal hI _ _ hv)) fun _ => .modify fun _ hs => hs

theorem Lasting.steady : Steady (Holds I) fun _ => True where
  stack _ hs := hs
  output _ hs := hs
  takeOver hs := hI.takeOutput hs
  execute {s} function arguments hs := by
    have ht := hI.execute function arguments hs
    unfold Action.attempt at ht
    cases h : T.execute function arguments s.target with
    | ok results target =>
      rw [h] at ht
      exact ht
    | error e target =>
      rw [h] at ht
      exact ⟨ht, trivial⟩
  raises _ := trivial
  markInline {s id} hs _ := hI.markInline id hs
  pending _ _ _ := trivial
  unfilled _ _ _ _ := trivial

theorem outlasts_perform (position : Nat) (p : Phrase) : Outlasts I (perform position p) := by
  cases p with
  | definition name body fault => exact outlasts_define hI name body fault
  | declaration name inputs outputs => exact outlasts_declare hI name inputs outputs
  | see name => exact hI.steady.see name
  | token t => exact hI.steady.executeToken t position

theorem outlasts_runFrom (c : Cursor) : Outlasts I (runFrom c) := by
  intro s hs
  fun_induction runFrom c s with
  | case1 => exact ⟨hs, trivial⟩
  | case2 => exact hs
  | case3 c s phrase rest _ e s' h => exact (outlasts_perform hI c.consumed phrase).error hs h
  | case4 c s phrase rest _ u s' h ih => exact ih ((outlasts_perform hI c.consumed phrase).ok hs h)

theorem outlasts_run (text : String) : Outlasts I (run text) := by
  intro s hs
  have ht := outlasts_runFrom hI (Cursor.ofText text) s hs
  unfold run
  cases h : runFrom (Cursor.ofText text) s with
  | ok u s' =>
    rw [h] at ht
    exact hI.takeOutput ht
  | error e s' =>
    rw [h] at ht
    exact ⟨hI.takeOutput ht.1, trivial⟩

theorem holds_ofConfig {target : T.State} {config : Config} {s : Session T}
    (start : Holds I (ofTarget target)) (h : ofConfig target config = .ok s) : Holds I s := by
  have hk : Outlasts I _ := .forM (fun w : ExternalWord =>
    .ofExcept_bind (r := w.signature) (fun _ _ => trivial) fun _ hs =>
      (outlasts_declareExternal hI w.name w.linkSymbol
        (Signature.valued_of_ofCodes hs)).discard) config.externals
  simp only [ofConfig] at h
  split at h
  · rename_i hd
    cases h
    have hs := hk.ok start hd
    exact hs
  · cases h

/-- What holds of a fresh session and outlasts all that can happen holds of every reachable one. -/
theorem Reachable.holds {target : T.State} {s : Session T} (h : Reachable target s)
    (start : Holds I (ofTarget target)) : Holds I s := by
  induction h with
  | start h => exact holds_ofConfig hI start h
  | run text _ ih => exact (outlasts_run hI text).attempt ih
  | takeOutput _ ih => exact ih

end Lasting
end Session
end StackEffect
