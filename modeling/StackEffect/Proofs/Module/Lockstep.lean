import StackEffect.Proofs.Machine.Linking
import StackEffect.Proofs.Module.Linking
import StackEffect.Proofs.Session.Halting

/-!
One text in two sessions. A session that generates a module and one that executes its code show the
same, step by step, until the former is asked for something that it does not support (`Lockstep`,
`run_agrees`). The target is consulted at three points only: a declaration is refused for a type
alone, a definition for a type in its signature alone, and no word is executed in a module.
-/
namespace StackEffect

namespace Session

/-- What the two sessions know and show is the same, and executed code has printed nothing yet. -/
structure Alike (l : Session IRModule.target) (v : Session Machine.target) : Prop where
  dictionary : v.dictionary = l.dictionary
  draft : v.draft = l.draft
  stack : v.stack = l.stack
  traces : v.traces = l.traces
  output : v.output = l.output
  mode : v.mode = l.mode
  quiet : v.target.output = ""

/-- What one session answers the other answers too, unless it is not supported. -/
inductive Matches {α : Type} : EStateM.Result CompileError (Session IRModule.target) α →
    EStateM.Result CompileError (Session Machine.target) α → Prop
  | ok {a : α} {l : Session IRModule.target} {v : Session Machine.target} : Alike l v →
      Matches (.ok a l) (.ok a v)
  | error {e : CompileError} {l : Session IRModule.target} {v : Session Machine.target} :
      Alike l v → Matches (.error e l) (.error e v)
  | unsupported {fault : UnsupportedUse} {l : Session IRModule.target}
      {r : EStateM.Result CompileError (Session Machine.target) α} :
      Matches (.error (.unsupported fault) l) r

theorem Matches.cases {α : Type} {r : EStateM.Result CompileError (Session IRModule.target) α}
    {r' : EStateM.Result CompileError (Session Machine.target) α} (h : Matches r r') :
    (∃ fault l, r = .error (.unsupported fault) l) ∨
      (∃ e l v, r = .error e l ∧ r' = .error e v ∧ Alike l v) ∨
      ∃ a l v, r = .ok a l ∧ r' = .ok a v ∧ Alike l v := by
  cases h with
  | ok h => exact .inr (.inr ⟨_, _, _, rfl, rfl, h⟩)
  | error h => exact .inr (.inl ⟨_, _, _, rfl, rfl, h⟩)
  | unsupported => exact .inl ⟨_, _, rfl⟩

/-- Whatever the sessions, if they are the same, what the actions do to them is. -/
def Lockstep {α : Type} (x : Action (Session IRModule.target) α)
    (y : Action (Session Machine.target) α) : Prop := ∀ l v, Alike l v → Matches (x l) (y v)

namespace Lockstep
variable {α β : Type}

theorem pure (a : α) : Lockstep (pure a) (pure a) := fun _ _ h => .ok h

theorem throw (e : CompileError) : Lockstep (throw e : Action _ α) (throw e) :=
  fun _ _ h => .error h

theorem ofExcept (r : Except CompileError α) : Lockstep (Action.ofExcept r) (Action.ofExcept r) := by
  cases r with
  | ok a => exact pure a
  | error e => exact throw e

theorem bind {x : Action (Session IRModule.target) α} {y : Action (Session Machine.target) α}
    {f : α → Action (Session IRModule.target) β} {g : α → Action (Session Machine.target) β}
    (hx : Lockstep x y) (hf : ∀ a, Lockstep (f a) (g a)) : Lockstep (x >>= f) (y >>= g) := by
  intro l v h
  have hxy := hx l v h
  rw [Action.bind_apply, Action.bind_apply]
  generalize x l = r, y v = r' at hxy
  cases hxy with
  | ok h' => exact hf _ _ _ h'
  | error h' => exact .error h'
  | unsupported => exact .unsupported

theorem get_bind {f : Session IRModule.target → Action (Session IRModule.target) β}
    {g : Session Machine.target → Action (Session Machine.target) β}
    (hf : ∀ l v, Alike l v → Matches (f l l) (g v v)) : Lockstep (get >>= f) (get >>= g) := hf

/-! ### Executing tokens -/

theorem push (values : List Value) : Lockstep (push values) (push values) :=
  fun _ _ h => .ok { h with stack := congrArg (values.reverse ++ ·) h.stack }

theorem drop (count : Nat) : Lockstep (drop count) (drop count) :=
  fun _ _ h => .ok { h with stack := congrArg (List.drop count) h.stack }

theorem print (text : String) : Lockstep (print text) (print text) :=
  fun _ _ h => .ok { h with output := congrArg (· ++ text) h.output }

theorem topValues (word : String) (count : Nat) :
    Lockstep (topValues word count) (topValues word count) := by
  refine get_bind fun l v h => ?_
  rw [h.stack]
  by_cases hc : count ≤ l.stack.length
  · simpa only [hc, if_true] using .ok h
  · simpa only [hc, if_false] using .error h

theorem executePrimitive (p : Primitive) (position : Nat) :
    Lockstep (executePrimitive p position) (executePrimitive p position) :=
  bind (topValues _ _) fun _ => bind (ofExcept _) fun _ => bind (ofExcept _) fun _ =>
    bind (drop _) fun _ => push _

/-- A module is asked in vain to execute a word whose arguments are there. -/
theorem executeWord (id : WordId) (w : Word) (position : Nat) :
    Lockstep (executeWord id w position) (executeWord id w position) := by
  refine bind (ofExcept _) fun signature => bind (topValues _ _) fun arguments =>
    bind (ofExcept _) fun _ => bind (drop _) fun _ => get_bind fun l v h => ?_
  cases (l.functions[id]?).join with
  | none => exact .unsupported
  | some f => exact .unsupported

theorem executeDirective (d : Directive) :
    Lockstep (executeDirective d) (executeDirective d) := by
  cases d with
  | print => exact bind (topValues _ _) fun _ => bind (drop _) fun _ => print _
  | printStack =>
    refine get_bind fun l v h => ?_
    rw [h.stack]
    exact print _ _ _ h
  | see => exact throw _
  | words =>
    refine get_bind fun l v h => ?_
    rw [h.dictionary]
    exact print _ _ _ h
  | markInline =>
    refine get_bind fun l v h => ?_
    rw [h.dictionary]
    cases l.dictionary.latestDefinition with
    | none => exact .error h
    | some id => exact .ok { h with dictionary := congrArg (·.markInline id) h.dictionary }

theorem see (name : String) : Lockstep (see name) (see name) := by
  refine get_bind fun l v h => ?_
  rw [h.dictionary]
  cases l.dictionary.lookup name with
  | none => exact .error h
  | some x =>
    cases hd : x.2.definition? with
    | none => simpa only [hd] using print _ _ _ h
    | some d => simpa only [hd] using print _ _ _ h

theorem executeToken (t : Token) (position : Nat) :
    Lockstep (executeToken t position) (executeToken t position) := by
  refine get_bind fun l v h => ?_
  rw [h.dictionary]
  cases named l.dictionary t with
  | none => exact bind (ofExcept _) (fun _ => push _) _ _ h
  | some x =>
    obtain ⟨id, name, kind, inline, hidden⟩ := x
    cases kind with
    | builtin b =>
      cases b with
      | primitive p => exact executePrimitive p position _ _ h
      | directive d => exact executeDirective d _ _ h
    | pending => exact .unsupported
    | compiled d => exact executeWord _ _ _ _ _ h
    | external signature symbol => exact executeWord _ _ _ _ _ h

/-! ### Declarations -/

theorem modify {f : Session IRModule.target → Session IRModule.target}
    {g : Session Machine.target → Session Machine.target} (hf : ∀ l v, Alike l v → Alike (f l) (g v)) :
    Lockstep (modify f) (modify g) := fun _ _ h => .ok (hf _ _ h)

theorem discard {x : Action (Session IRModule.target) α} {y : Action (Session Machine.target) α}
    (hx : Lockstep x y) : Lockstep (discard x) (discard y) := by
  intro l v h
  have hxy := hx l v h
  rw [Action.discard_apply, Action.discard_apply]
  generalize x l = r, y v = r' at hxy
  cases hxy with
  | ok h' => exact .ok h'
  | error h' => exact .error h'
  | unsupported => exact .unsupported

theorem forM {f : α → Action (Session IRModule.target) PUnit}
    {g : α → Action (Session Machine.target) PUnit} (hf : ∀ a, Lockstep (f a) (g a)) (as : List α) :
    Lockstep (as.forM f) (as.forM g) := by
  induction as with
  | nil => exact pure _
  | cons a as ih =>
    rw [Action.forM_cons, Action.forM_cons]
    exact bind (hf a) fun _ => ih

theorem declareExternal (name symbol : String) (signature : Signature) :
    Lockstep (declareExternal name symbol signature) (declareExternal name symbol signature) := by
  intro l v h
  rw [declareExternal_eq, declareExternal_eq, h.dictionary]
  cases hd : IRModule.target.declare name symbol signature l.target with
  | error e m =>
    obtain ⟨-, type, rfl⟩ := IRModule.declare_eq_error name hd
    exact .unsupported
  | ok f m =>
    exact .ok { h with dictionary := congrArg (·.enter (.external name symbol signature)) h.dictionary }

theorem declare (name : String) (inputs outputs : List String) :
    Lockstep (declare name inputs outputs) (declare name inputs outputs) :=
  bind (modify fun _ _ h => { h with mode := rfl }) fun _ => bind (ofExcept _) fun _ =>
    bind (ofExcept _) fun _ => bind (discard (declareExternal _ _ _)) fun _ =>
      modify fun _ _ h => { h with mode := rfl }

end Lockstep

/-! ### Definitions -/

/-- Code is generated for the same definitions, but for those with a type without a counterpart. -/
theorem matches_define {l : Session IRModule.target} {v : Session Machine.target} (h : Alike l v)
    (hl : Holds IRModule.Linked l) (hv : Holds Machine.Linked v) (name : String) (body : List Token)
    (fault : Option CompileError) : Matches (define name body fault l) (define name body fault v) := by
  have habandoned : ∀ draft, Alike (l.abandoned name draft l.target) (v.abandoned name draft v.target) :=
    fun draft => { h with
      dictionary := congrArg (·.enter (.pending name)) h.dictionary
      draft := rfl
      mode := rfl }
  rw [define_eq, define_eq, h.dictionary]
  cases hread : readBody l.dictionary body {} with
  | error e draft => exact .error (habandoned draft)
  | ok u draft =>
    cases fault with
    | some e => exact .error (habandoned draft)
    | none =>
      dsimp only
      cases hg : generate (draft.toDefinition name body) (l.functions.push none) l.target with
      | error e m =>
        obtain ⟨-, type, rfl⟩ := IRModule.Linked.generate_eq_error hl hread hg
        exact .unsupported
      | ok f m =>
        have hsound : (draft.toDefinition name body).Sound v.dictionary.vocabulary :=
          h.dictionary ▸ sound_toDefinition hl.sound hread
        obtain ⟨r, m', hg'⟩ := Machine.exists_generate hv hsound
        obtain ⟨s, b, -, rfl, -, rfl⟩ := Machine.generate_eq_ok hsound hg'
        rw [hg']
        exact .ok { h with
          dictionary :=
            congrArg (·.enter (.compiled name (draft.toDefinition name body))) h.dictionary
          draft := rfl
          output := by simp only [defined, h.traces, h.output]
          mode := rfl }

theorem matches_perform {l : Session IRModule.target} {v : Session Machine.target} (h : Alike l v)
    (hl : Holds IRModule.Linked l) (hv : Holds Machine.Linked v) (position : Nat) (p : Phrase) :
    Matches (perform position p l) (perform position p v) := by
  cases p with
  | definition name body fault => exact matches_define h hl hv name body fault
  | declaration name inputs outputs => exact Lockstep.declare name inputs outputs l v h
  | see name => exact Lockstep.see name l v h
  | token t => exact Lockstep.executeToken t position l v h

/-! ### Runs -/

theorem Alike.seesNext {l : Session IRModule.target} {v : Session Machine.target} (h : Alike l v) :
    v.seesNext = l.seesNext := by
  funext t
  simp only [Session.seesNext, h.dictionary]

theorem matches_runFrom {l : Session IRModule.target} {v : Session Machine.target} (h : Alike l v)
    (hl : Holds IRModule.Linked l) (hv : Holds Machine.Linked v) (c : Cursor) :
    Matches (runFrom c l) (runFrom c v) := by
  fun_induction runFrom c l generalizing v with
  | case1 c l e hn =>
    rw [runFrom_of_error (h.seesNext ▸ hn)]
    exact .error h
  | case2 c l hn =>
    rw [runFrom_of_end (h.seesNext ▸ hn)]
    exact .ok h
  | case3 c l phrase rest hn e l' hp =>
    have hperform := matches_perform h hl hv c.consumed phrase
    rw [runFrom_of_phrase (h.seesNext ▸ hn), Action.bind_apply]
    rw [hp] at hperform
    generalize perform c.consumed phrase v = r at hperform
    cases hperform with
    | error h' => exact .error h'
    | unsupported => exact .unsupported
  | case4 c l phrase rest hn u l' hp ih =>
    have hperform := matches_perform h hl hv c.consumed phrase
    have hrun : runFrom c v = _ := runFrom_of_phrase (h.seesNext ▸ hn)
    rw [hrun, Action.bind_apply]
    rw [hp] at hperform
    cases hp' : perform c.consumed phrase v with
    | error e v' =>
      rw [hp'] at hperform
      cases hperform
    | ok u' v' =>
      rw [hp'] at hperform
      cases hperform with
      | ok h' =>
        exact ih h' ((outlasts_perform IRModule.lasting_linked c.consumed phrase).ok hl hp)
          ((outlasts_perform Machine.lasting_linked c.consumed phrase).ok hv hp')

theorem Alike.takeOver {l : Session IRModule.target} {v : Session Machine.target} (h : Alike l v) :
    Alike l.takeOver v.takeOver :=
  { h with
    output := by
      have hprinted : v.takeOver.output = v.output ++ v.target.output := rfl
      rw [hprinted, h.quiet, h.output]
      rfl
    quiet := rfl }

theorem Alike.reset {l : Session IRModule.target} {v : Session Machine.target} (h : Alike l v) :
    Alike l.reset v.reset :=
  { h with draft := rfl, mode := rfl }

theorem matches_run {l : Session IRModule.target} {v : Session Machine.target} (h : Alike l v)
    (hl : Holds IRModule.Linked l) (hv : Holds Machine.Linked v) (text : String) :
    Matches (run text l) (run text v) := by
  have hrun := matches_runFrom h hl hv (Cursor.ofText text)
  unfold run
  generalize runFrom (Cursor.ofText text) l = r, runFrom (Cursor.ofText text) v = r' at hrun
  cases hrun with
  | ok h' => exact .ok h'.takeOver
  | error h' => exact .error h'.reset.takeOver
  | unsupported => exact .unsupported

theorem alike_of_config (config : Config) :
    (∃ fault, moduleSession config = .error (.unsupported fault)) ∨
      (∃ e, moduleSession config = .error e ∧ machineSession config = .error e) ∨
      ∃ l v, moduleSession config = .ok l ∧ machineSession config = .ok v ∧ Alike l v := by
  have hstart : Alike (ofTarget
      { name := config.moduleName, triple := config.targetTriple.getD hostTriple })
      (ofTarget ({} : Machine)) := ⟨rfl, rfl, rfl, rfl, rfl, rfl, rfl⟩
  have hdeclare := Lockstep.forM (fun w : ExternalWord => .bind (.ofExcept w.signature) fun s =>
    .discard (.declareExternal w.name w.linkSymbol s)) config.externals _ _ hstart
  unfold moduleSession machineSession ofConfig
  dsimp only
  rcases hdeclare.cases with ⟨fault, l, hr⟩ | ⟨e, l, v, hr, hr', -⟩ | ⟨u, l, v, hr, hr', h⟩
  · exact .inl ⟨fault, by rw [hr]⟩
  · exact .inr (.inl ⟨e, by rw [hr], by rw [hr']⟩)
  · exact .inr (.inr ⟨{ l with traces := config.traceDefinitions },
      { v with traces := config.traceDefinitions }, by rw [hr], by rw [hr'], { h with traces := rfl }⟩)

/-! ### Open types -/

theorem not_mem_codes {types : List ValueType} (h : .any ∉ types) :
    '?' ∉ (Signature.codes types).toList := by
  have hjoin : ∀ (types : List ValueType) (start : String), .any ∉ types → '?' ∉ start.toList →
      '?' ∉ ((types.map fun type => " " ++ type.code).foldl (· ++ ·) start).toList := by
    intro types
    induction types with
    | nil => exact fun _ _ hs => hs
    | cons type types ih =>
      intro start h hs
      obtain ⟨htype, htypes⟩ := List.ne_and_not_mem_of_not_mem_cons h
      refine ih _ htypes ?_
      have hcode : '?' ∉ (" " ++ type.code).toList := by
        cases type with
        | any => exact absurd rfl htype
        | null | int32 | float | string => decide
      rw [String.toList_append]
      exact List.not_mem_append hs hcode
  exact hjoin types "" h (by decide)

theorem not_mem_text {s : Signature} (hi : .any ∉ s.inputs) (ho : .any ∉ s.outputs) :
    '?' ∉ s.text.toList := by
  simp [Signature.text, String.toList_append, not_mem_codes hi, not_mem_codes ho]

/-- No word of a session that generates a module has an open type in its signature. -/
theorem Reachable.not_open {name triple : String} {s : Session IRModule.target}
    (h : Reachable ({ name, triple } : IRModule) s) {id : WordId} {w : Word} {signature : Signature}
    (hw : s.dictionary.word? id = some w) (hs : w.signature = .ok signature) :
    .any ∉ signature.inputs ∧ .any ∉ signature.outputs := by
  have hl := h.linked_module
  obtain ⟨f, -, hf, b, hmem⟩ := hl.answers hw (Word.isUser_of_signature hs)
  obtain rfl : signature = f.signature := Except.ok.inj (hs.symm.trans hf)
  have htyped := hl.coherent.typed hmem
  have hclosed : ∀ {types : List ValueType} {lowered},
      types.mapM IRType.ofValueType = .ok lowered → .any ∉ types := by
    intro types lowered hm hany
    obtain ⟨i, hi⟩ := List.mem_iff_getElem?.mp hany
    obtain ⟨type, -, htype⟩ := Pointwise.right_of_left (Except.mapM_eq_ok.mp hm) hi
    cases htype
  exact ⟨hclosed htyped.parameters, hclosed htyped.results⟩

theorem mem_userWords {d : Dictionary} {x : String × Signature} (h : x ∈ d.userWords) :
    ∃ id w, d.word? id = some w ∧ w.signature = .ok x.2 := by
  rw [Dictionary.userWords_eq] at h
  obtain ⟨⟨id, w⟩, hmem, hx⟩ := List.mem_filterMap.mp h
  obtain ⟨s, hs, rfl⟩ := Option.map_eq_some_iff.mp hx
  refine ⟨id, w, (Dictionary.word?_of_mem_entered hmem).1, ?_⟩
  cases hw : w.signature with
  | ok s' =>
    rw [hw] at hs
    cases hs
    rfl
  | error e =>
    rw [hw] at hs
    cases hs

theorem matches_of_config {l : Session IRModule.target} {v : Session Machine.target}
    {config : Config} (hl : moduleSession config = .ok l) (hv : machineSession config = .ok v)
    (h : Alike l v) (text : String) : Matches (run text l) (run text v) :=
  matches_run h (Reachable.start hl).linked_module (Reachable.start hv).linked text

/-- A text that a module is made of passes the check. -/
theorem checkText_of_compileText {text ir : String} {config : Config}
    (h : compileText text config = .ok ir) : ∃ words, checkText text config = .ok words ∧
      ∀ x ∈ words, '?' ∉ x.2.text.toList := by
  obtain ⟨l, l', hl, hl', -⟩ := compileText_eq_ok.mp h
  rcases alike_of_config config with ⟨fault, he⟩ | ⟨e, he, -⟩ | ⟨l₀, v, hl₀, hv, hsame⟩
  · cases hl.symm.trans he
  · cases hl.symm.trans he
  · cases hl.symm.trans hl₀
    have hrun := matches_of_config hl hv hsame text
    rw [afterRun_eq_ok.mp hl'] at hrun
    obtain ⟨v', hv', halike⟩ : ∃ v', run text v = .ok () v' ∧ Alike l' v' := by
      rcases hrun.cases with ⟨_, _, hr⟩ | ⟨_, _, _, hr, -⟩ | ⟨_, _, v', hr, hr', h'⟩
      · cases hr
      · cases hr
      · cases hr
        exact ⟨v', hr', h'⟩
    refine ⟨v'.dictionary.userWords, Except.bind_eq_ok.mpr ⟨v, hv, Except.bind_eq_ok.mpr
      ⟨v', afterRun_eq_ok.mpr hv', rfl⟩⟩, fun x hx => ?_⟩
    rw [halike.dictionary] at hx
    obtain ⟨id, w, hw, hs⟩ := mem_userWords hx
    obtain ⟨hi, ho⟩ := ((Reachable.start hl).afterRun hl').not_open hw hs
    exact not_mem_text hi ho

/-- What a text does in a fresh session does not hang on the target, up to the point where a module is
asked for something that it does not support. If a module is made of the text then the text passes
the check as well, and no signature in it is open. -/
theorem run_agrees (text : String) (config : Config) :
    ((∃ fault, moduleSession config = .error (.unsupported fault)) ∨
      (∃ e, moduleSession config = .error e ∧ machineSession config = .error e) ∨
      ∃ l v, moduleSession config = .ok l ∧ machineSession config = .ok v ∧
        ((∃ fault, ((run text).attempt l).1 = .error (.unsupported fault)) ∨
          ((run text).attempt v).1 = ((run text).attempt l).1 ∧
            Alike ((run text).attempt l).2 ((run text).attempt v).2)) ∧
      ∀ ir, compileText text config = .ok ir → ∃ words, checkText text config = .ok words ∧
        ∀ x ∈ words, '?' ∉ x.2.text.toList := by
  refine ⟨?_, fun ir hir => checkText_of_compileText hir⟩
  rcases alike_of_config config with hfault | he | ⟨l, v, hl, hv, h⟩
  · exact .inl hfault
  · exact .inr (.inl he)
  · refine .inr (.inr ⟨l, v, hl, hv, ?_⟩)
    unfold Action.attempt
    rcases (matches_of_config hl hv h text).cases with ⟨fault, l', hr⟩ |
      ⟨e, l', v', hr, hr', h'⟩ | ⟨u, l', v', hr, hr', h'⟩
    · exact .inl ⟨fault, by rw [hr]⟩
    · rw [hr, hr']
      exact .inr ⟨rfl, h'⟩
    · rw [hr, hr']
      exact .inr ⟨rfl, h'⟩

def tripling : String := ": thrice dup dup + + ; : label \"x\" 2.5 ; 3 4 * ."

theorem run_agrees_tripling : ∃ l v, moduleSession {} = .ok l ∧ machineSession {} = .ok v ∧
    ((run tripling).attempt l).1 = .ok () ∧ ((run tripling).attempt v).1 = .ok () ∧
    Alike ((run tripling).attempt l).2 ((run tripling).attempt v).2 ∧
    ∃ words, checkText tripling {} = .ok words ∧ ∀ x ∈ words, '?' ∉ x.2.text.toList := by
  obtain ⟨ir, hir⟩ : ∃ ir, compileText tripling {} = .ok ir :=
    Except.exists_of_isOk (by decide +kernel)
  obtain ⟨hsessions, hwords⟩ := run_agrees tripling {}
  obtain ⟨l, l', hl, hl', -⟩ := compileText_eq_ok.mp hir
  have hrun : ((run tripling).attempt l).1 = .ok () := by
    rw [Action.attempt, afterRun_eq_ok.mp hl']
  rcases hsessions with ⟨fault, h⟩ | ⟨e, h, -⟩ | ⟨l₀, v, hl₀, hv, ⟨fault, h⟩ | ⟨hsame, h⟩⟩
  · cases hl.symm.trans h
  · cases hl.symm.trans h
  · cases hl.symm.trans hl₀
    cases hrun.symm.trans h
  · cases hl.symm.trans hl₀
    exact ⟨l, v, hl, hv, hrun, hsame.trans hrun, h, hwords ir hir⟩

end Session
end StackEffect
