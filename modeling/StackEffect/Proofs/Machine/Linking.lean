import StackEffect.Proofs.Machine.Lowering
import StackEffect.Proofs.Session.Typing
import StackEffect.Proofs.Targets

/-!
Words and routines. In a session that executes its code, each external word has a routine without a
body and each definition one with a body that realises it (`Linked`). Routines that are there never
change, so this outlasts whatever the session is given (`Reachable.linked`).
-/
namespace StackEffect

/-- Only what its vocabulary does matters for what a definition means. -/
theorem Definition.Sound.meaning_congr {V : Vocabulary} {d : Definition} {calls calls' : Calls}
    (hd : d.Sound V) (h : ∀ c, V c → calls c = calls' c) : d.meaning calls = d.meaning calls' := by
  have heval : d.graph.evaluate calls = d.graph.evaluate calls' := by
    funext arguments
    refine evaluate_congr (fun _ _ _ _ _ => rfl) (fun n hn callee hk => h callee ?_) #[]
    obtain ⟨id, hid⟩ := Graph.exists_node?_of_mem hn
    have hword := hd.graph.words hid
    rw [hk] at hword
    exact hword
  unfold meaning
  rw [heval]

namespace Machine

/-- What the routine of a word is: that of an external word has no body, that of a definition has
one that realises it. -/
def Provides (m : Machine) (functions : FunctionTable Machine.target) (id : WordId) (w : Word) :
    Prop :=
  match w.kind with
  | .external s symbol => ∃ (r : RoutineId) (routine : Routine), functions[id]? = some (some r) ∧
      m.routines[r]? = some routine ∧ routine.body = none ∧ routine.symbol = symbol ∧
      routine.signature = s
  | .compiled f => ∃ (r : RoutineId) (routine : Routine) (b : Body),
      functions[id]? = some (some r) ∧ m.routines[r]? = some routine ∧ routine.body = some b ∧
      f.signature = .ok routine.signature ∧ Realises functions b f
  | .builtin _ | .pending => True

structure Linked (d : Dictionary) (m : Machine) (functions : FunctionTable Machine.target) :
    Prop where
  sound : d.Sound
  size : functions.size = d.size
  provides : ∀ {id w}, d.word? id = some w → Provides m functions id w

theorem Linked.exists_routine {d : Dictionary} {m : Machine}
    {functions : FunctionTable Machine.target} (h : Linked d m functions) {id : WordId} {w : Word}
    (hw : d.word? id = some w) (hu : w.isUser = true) :
    ∃ (r : RoutineId) (routine : Routine), functions[id]? = some (some r) ∧
      m.routines[r]? = some routine ∧ w.signature = .ok routine.signature ∧
      ((∃ s, w.kind = .external s routine.symbol ∧ routine.body = none) ∨
        ∃ f b, w.kind = .compiled f ∧ routine.body = some b ∧ Realises functions b f) := by
  have hprovides := h.provides hw
  unfold Provides at hprovides
  rcases Word.isUser_iff.mp hu with ⟨s, symbol, hk⟩ | ⟨f, hk⟩
  · simp only [hk] at hprovides ⊢
    obtain ⟨r, routine, hr, hroutine, hbody, rfl, rfl⟩ := hprovides
    exact ⟨r, routine, hr, hroutine, Word.signature_of_external hk, .inl ⟨_, rfl, hbody⟩⟩
  · simp only [hk] at hprovides ⊢
    obtain ⟨r, routine, b, hr, hroutine, hbody, hs, hrealises⟩ := hprovides
    exact ⟨r, routine, hr, hroutine, (Word.signature_of_compiled hk).trans hs,
      .inr ⟨f, b, rfl, hbody, hrealises⟩⟩

theorem Realises.congr {V : Vocabulary} {functions functions' : FunctionTable Machine.target}
    {b : Body} {f : Definition} (h : Realises functions b f) (hf : f.Sound V)
    (hfunctions : ∀ c, V c → functions'[c.word]? = functions[c.word]?) :
    Realises functions' b f := by
  intro call arguments hl
  have hcalls : ∀ c, V c → invoke functions call c = invoke functions' call c := by
    intro c hc
    funext values
    simp only [invoke, hfunctions c hc]
  rw [h call arguments hl, hf.meaning_congr hcalls]

theorem Provides.mono {V : Vocabulary} {m m' : Machine}
    {functions functions' : FunctionTable Machine.target} {id : WordId} {w : Word}
    (h : Provides m functions id w)
    (hm : ∀ {r : Nat} {routine}, m.routines[r]? = some routine → m'.routines[r]? = some routine)
    (hid : functions'[id]? = functions[id]?) (hw : ∀ f, w.kind = .compiled f → f.Sound V)
    (hfunctions : ∀ c, V c → functions'[c.word]? = functions[c.word]?) :
    Provides m' functions' id w := by
  unfold Provides at h ⊢
  cases hk : w.kind with
  | builtin b => trivial
  | pending => trivial
  | external s symbol =>
    simp only [hk] at h
    obtain ⟨r, routine, hr, hroutine, hrest⟩ := h
    exact ⟨r, routine, hid.trans hr, hm hroutine, hrest⟩
  | compiled f =>
    simp only [hk] at h
    obtain ⟨r, routine, b, hr, hroutine, hb, hs, hrealises⟩ := h
    exact ⟨r, routine, b, hid.trans hr, hm hroutine, hb, hs, hrealises.congr (hw f hk) hfunctions⟩

theorem Linked.enter {d : Dictionary} {m m' : Machine}
    {functions functions' : FunctionTable Machine.target} {w : Word} (h : Linked d m functions)
    (hm : ∀ {r : Nat} {routine}, m.routines[r]? = some routine → m'.routines[r]? = some routine)
    (hsize : functions'.size = functions.size + 1)
    (hfunctions : ∀ id < d.size, functions'[id]? = functions[id]?)
    (hsound : (d.enter w).Sound) (hw : Provides m' functions' d.size w) :
    Linked (d.enter w) m' functions' where
  sound := hsound
  size := by rw [hsize, h.size, Dictionary.size_enter]
  provides hv := by
    rcases Dictionary.word?_enter_eq_some.mp hv with ⟨rfl, rfl⟩ | hv
    · exact hw
    · refine (h.provides hv).mono hm (hfunctions _ (Dictionary.lt_size_of_word? hv))
        (fun f hf => h.sound.compiled hv hf) fun c hc => ?_
      obtain ⟨w', hw', -⟩ := hc
      exact hfunctions _ (Dictionary.lt_size_of_word? hw')

/-- A definition gets a new routine. Its body is the code that has been generated for the nodes. -/
theorem generated_of_generate {V : Vocabulary} {f : Definition}
    {functions : FunctionTable Machine.target} {m m' : Machine} {function : RoutineId}
    (hf : f.Sound V) (h : Session.generate f functions m = .ok function m') :
    ∃ (start stop : Machine) (s : Signature) (b : Body) (table : Table Register)
      (operands : List Register),
      start.building = some {} ∧ stop = { start with building := some b } ∧
      Generated (T := Machine.target) f.graph functions start f.graph.nodes.toList table stop ∧
      table.Reads f.outputs operands ∧ f.signature = .ok s ∧ function = m.routines.size ∧
      m' = { m with
        building := none
        routines := m.routines.push { name := f.name, symbol := f.name, signature := s,
                                      body := some { b with outputs := operands } } } := by
  obtain ⟨s, m₁, hs, hrest⟩ := Action.bind_eq_ok.mp h
  obtain ⟨hsignature, rfl⟩ := Action.ofExcept_eq_ok.mp hs
  obtain ⟨id, m₂, hd, hrest⟩ := Action.bind_eq_ok.mp hrest
  cases hd
  obtain ⟨u, m₃, hc, hrest⟩ := Action.bind_eq_ok.mp hrest
  cases hrest
  obtain ⟨cache, hcache⟩ := Action.discard_eq_ok.mp hc
  obtain ⟨routine, b, table, operands, hroutine, hgen, hreads, rfl⟩ := generated_of_compile hf hcache
  rw [Array.getElem?_push_size] at hroutine
  cases hroutine
  exact ⟨_, _, s, b, table, operands, rfl, rfl, hgen, hreads, hsignature, rfl,
    by rw [setIfInBounds_push]⟩

theorem generate_eq_ok {V : Vocabulary} {f : Definition}
    {functions : FunctionTable Machine.target} {m m' : Machine} {function : RoutineId}
    (hf : f.Sound V) (h : Session.generate f functions m = .ok function m') :
    ∃ s b, f.signature = .ok s ∧ function = m.routines.size ∧ Realises functions b f ∧
      m' = { m with
        building := none
        routines := m.routines.push { name := f.name, symbol := f.name, signature := s, body := b } } := by
  obtain ⟨start, stop, s, b, table, operands, hstart, rfl, hgen, hreads, hs, rfl, rfl⟩ :=
    generated_of_generate hf h
  obtain ⟨b', hb', hlowered⟩ := lowered_of_generated hstart
    (fun _ hn => hf.graph.ordered.length_of_mem hn) hgen
  cases hb'
  exact ⟨s, _, hs, rfl, hlowered.realises hf hreads, rfl⟩

theorem generate_error {f : Definition} {functions : FunctionTable Machine.target}
    {m m' : Machine} {e : CompileError} (h : Session.generate f functions m = .error e m')
    {r : Nat} {routine : Routine} (hr : m.routines[r]? = some routine) :
    m'.routines[r]? = some routine := by
  have hlt := (Array.getElem?_eq_some_iff.mp hr).1
  rcases Action.bind_eq_error.mp h with hs | ⟨s, m₁, hs, hrest⟩
  · obtain ⟨-, rfl⟩ := Action.ofExcept_eq_error.mp hs
    exact hr
  · obtain ⟨-, rfl⟩ := Action.ofExcept_eq_ok.mp hs
    rcases Action.bind_eq_error.mp hrest with hd | ⟨id, m₂, hd, hrest⟩
    · cases hd
    · cases hd
      rcases Action.bind_eq_error.mp hrest with hc | ⟨u, m₃, -, hrest⟩
      · have hset : ∀ {rs : Array Routine} (r' : Routine), rs[r]? = some routine →
            (rs.setIfInBounds m.routines.size r')[r]? = some routine := by
          intro rs r' hrs
          rw [Array.getElem?_setIfInBounds, if_neg (Nat.ne_of_gt hlt), hrs]
        have htarget := @keeps_target (fun rs => rs[r]? = some routine) (fun _ => True)
          m.routines.size hset fun _ => trivial
        have hkeeps : (f.compile m.routines.size functions).Keeps _ _ :=
          Definition.keeps_compile htarget
            ⟨fun _ _ => trivial, trivial, fun _ _ _ => trivial, fun _ _ _ => trivial⟩
        refine (hkeeps.error ?_ (Action.discard_eq_error.mp hc)).1
        rw [Array.getElem?_push, if_neg (Nat.ne_of_lt hlt), hr]
      · cases hrest

section Push
variable {d : Dictionary} {m : Machine} {functions : FunctionTable Machine.target}

theorem getElem?_functions_push (h : Linked d m functions) {id : Nat} (hid : id < d.size)
    (x : Option RoutineId) : (functions.push x)[id]? = functions[id]? := by
  rw [Array.getElem?_push, if_neg (by rw [h.size]; exact Nat.ne_of_lt hid)]

theorem getElem?_functions_complete (h : Linked d m functions) {id : Nat} (hid : id < d.size)
    (x : Option RoutineId) : ((functions.push none).setIfInBounds d.size x)[id]? = functions[id]? := by
  rw [Array.getElem?_setIfInBounds, if_neg (Nat.ne_of_gt hid), getElem?_functions_push h hid]

theorem getElem?_routines_push {r : Nat} {routine : Routine} (h : m.routines[r]? = some routine)
    (new : Routine) : (m.routines.push new)[r]? = some routine := by
  have hne : r ≠ m.routines.size := Nat.ne_of_lt (Array.getElem?_eq_some_iff.mp h).1
  rw [Array.getElem?_push, if_neg hne, h]

end Push

/-- A machine that is building a body has code for every node, if it has routines for the words. -/
theorem emits {V : Vocabulary} {g : Graph} {functions : FunctionTable Machine.target}
    {routines : Array Routine} (hg : g.Sound V)
    (hwords : ∀ c, V c → ∃ (r : RoutineId) (routine : Routine), functions[c.word]? = some (some r) ∧
      routines[r]? = some routine ∧ routine.signature = c.signature) :
    Emission.Emits g functions
      fun m : Machine => (∃ b, m.building = some b) ∧ m.routines = routines := by
  rintro id ⟨kind, inputs⟩ operands m hn hl ⟨⟨b, hb⟩, rfl⟩
  have hone : ∀ count i, ∃ m', emit count i m = .ok b.registers m' ∧
      (∃ b', m'.building = some b') ∧ m'.routines = m.routines :=
    fun count i => ⟨_, emit_of_building hb count i, ⟨_, rfl⟩, rfl⟩
  have harity := hl.trans (hg.ordered.length hn)
  cases kind with
  | literal value =>
    obtain ⟨m', hm', hP⟩ := hone 1 fun r => .constant r value
    exact ⟨_, m', Action.bind_eq_ok.mpr ⟨_, m', hm', rfl⟩, rfl, hP⟩
  | argument index type =>
    obtain ⟨m', hm', hP⟩ := hone 1 fun r => .argument r index
    have ho : g.Produces ⟨id, 0⟩ := Graph.produces_of_node? hn Nat.zero_lt_one
    obtain ⟨t, ht⟩ := hg.ordered.exists_outputType ho
    exact ⟨_, m', Action.bind_eq_ok.mpr ⟨t, m, Action.ofExcept_eq_ok.mpr ⟨ht, rfl⟩,
      Action.bind_eq_ok.mpr ⟨_, m', hm', rfl⟩⟩, rfl, hP⟩
  | primitive p =>
    cases p with
    | shuffle s =>
      refine ⟨_, m, rfl, ?_, ⟨b, hb⟩, rfl⟩
      have hsources : ∀ i ∈ s.sources, ∃ r, operands[i]? = some r := fun i hi =>
        ⟨_, List.getElem?_eq_getElem (harity.symm ▸ Shuffle.lt_arity_of_mem_sources hi)⟩
      exact (Pointwise.filterMap hsources).length_eq.symm
    | binary op type =>
      obtain ⟨left, right, rfl⟩ := List.length_eq_two.mp harity
      obtain ⟨m', hm', hP⟩ := hone 1 fun r => .binary r op left right
      exact ⟨_, m', Action.bind_eq_ok.mpr ⟨_, m', hm', rfl⟩, rfl, hP⟩
    | cast c =>
      obtain ⟨source, rfl⟩ := List.length_eq_one_iff.mp harity
      obtain ⟨m', hm', hP⟩ := hone 1 fun r => .cast r c source
      exact ⟨_, m', Action.bind_eq_ok.mpr ⟨_, m', hm', rfl⟩, rfl, hP⟩
  | call callee =>
    obtain ⟨r, routine, hr, hroutine, hsignature⟩ := hwords callee (hg.words hn)
    obtain ⟨m', hm', hP⟩ := hone routine.signature.outputArity fun first =>
      .call (List.range' first routine.signature.outputArity) r operands
    have hcall : emitCall r operands m =
        .ok (List.range' b.registers routine.signature.outputArity) m' := by
      rw [emitCall, Action.bind_of_ok (Action.get_apply m)]
      simp only [hroutine]
      exact Action.bind_eq_ok.mpr ⟨_, m', hm', rfl⟩
    refine ⟨List.range' b.registers routine.signature.outputArity, m', ?_, ?_, hP⟩
    · simp only [Emission.emit, hr, Option.join_some]
      exact hcall
    · rw [List.length_range', hsignature]
      rfl

theorem exists_generate_of_words {V : Vocabulary} {m : Machine}
    {functions : FunctionTable Machine.target} {f : Definition} (hf : f.Sound V)
    (hwords : ∀ c, V c → ∃ (r : RoutineId) (routine : Routine), functions[c.word]? = some (some r) ∧
      m.routines[r]? = some routine ∧ routine.signature = c.signature) :
    ∃ r m', Session.generate f functions m = .ok r m' := by
  obtain ⟨signature, hs⟩ := hf.exists_signature
  let declared : Machine := { m with
    routines := m.routines.push { name := f.name, symbol := f.name, signature } }
  have hdeclared : ∀ c, V c → ∃ (r : RoutineId) (routine : Routine),
      functions[c.word]? = some (some r) ∧ declared.routines[r]? = some routine ∧
      routine.signature = c.signature := by
    intro c hc
    obtain ⟨r, routine, hr, hroutine, hsignature⟩ := hwords c hc
    exact ⟨r, routine, hr, getElem?_routines_push hroutine _, hsignature⟩
  have hnew : declared.routines[m.routines.size]? =
      some { name := f.name, symbol := f.name, signature } := Array.getElem?_push_size
  have hbegin : Machine.target.beginBody m.routines.size declared =
      .ok () { declared with building := some {} } := rfl
  have hfinish : ∀ operands (t : Machine), operands.length = f.outputs.length →
      ((∃ b, t.building = some b) ∧ t.routines = declared.routines) →
      ∃ t', finishBody m.routines.size operands t = .ok () t' := by
    rintro operands t - ⟨⟨b, hb⟩, hroutines⟩
    simp only [finishBody, hb, hroutines, hnew]
    exact ⟨_, rfl⟩
  obtain ⟨cache, m', hcompile⟩ := Definition.exists_compile hf.graph.ordered
    (fun o ho => hf.outputs ho) (emits hf.graph hdeclared) hbegin ⟨⟨{}, rfl⟩, rfl⟩ hfinish
  exact ⟨_, m', Action.bind_eq_ok.mpr ⟨signature, m, Action.ofExcept_eq_ok.mpr ⟨hs, rfl⟩,
    Action.bind_eq_ok.mpr ⟨_, declared, rfl,
      Action.bind_eq_ok.mpr ⟨(), m', Action.discard_eq_ok.mpr ⟨cache, hcompile⟩, rfl⟩⟩⟩⟩

theorem exists_generate {d : Dictionary} {m : Machine} {functions : FunctionTable Machine.target}
    (h : Linked d m functions) {f : Definition} (hf : f.Sound d.vocabulary) :
    ∃ r m', Session.generate f (functions.push none) m = .ok r m' := by
  refine exists_generate_of_words hf ?_
  rintro c ⟨w, hw, hu, -, hsignature⟩
  obtain ⟨r, routine, hr, hroutine, hrs, -⟩ := h.exists_routine hw hu
  refine ⟨r, routine, ?_, hroutine, Except.ok.inj (hrs.symm.trans hsignature)⟩
  rw [getElem?_functions_push h (Dictionary.lt_size_of_word? hw), hr]

theorem execute_apply (r : RoutineId) (arguments : List Value) (m : Machine) :
    execute r arguments m = match callWithin m.routines (maxCallDepth + 1) r arguments m.output with
      | .ok results output => .ok results { m with output }
      | .error e output => .error e { m with output } := by
  rw [execute, Action.bind_of_ok (Action.get_apply m), withOutput, Action.within_apply]
  cases callWithin m.routines (maxCallDepth + 1) r arguments m.output <;> rfl

theorem routines_execute (function : RoutineId) (arguments : List Value) (m : Machine) :
    (Action.attempt (execute function arguments) m).2.routines = m.routines := by
  unfold Action.attempt
  rw [execute_apply]
  cases callWithin m.routines (maxCallDepth + 1) function arguments m.output <;> rfl

theorem Linked.of_routines {d : Dictionary} {m m' : Machine}
    {functions : FunctionTable Machine.target} (h : Linked d m functions)
    (hm : m'.routines = m.routines) : Linked d m' functions where
  sound := h.sound
  size := h.size
  provides hw := by simpa only [Provides, hm] using h.provides hw

theorem Linked.setInline {d : Dictionary} {m : Machine} {functions : FunctionTable Machine.target}
    (h : Linked d m functions) (id : WordId) (mark : Bool) :
    Linked (d.setInline id mark) m functions where
  sound := h.sound.setInline id mark
  size := by rw [h.size, Dictionary.setInline, Dictionary.size_modify]
  provides hw := by
    obtain ⟨v, hv, heq, -⟩ := Dictionary.word?_setInline hw
    have hprovides := h.provides hv
    rw [heq]
    exact hprovides

theorem lasting_linked : Session.Lasting (T := Machine.target) Linked where
  markInline id h := h.setInline id true
  execute function arguments h := h.of_routines (routines_execute function arguments _)
  takeOutput h := h.of_routines rfl
  declare h _ hd := by
    cases hd
    refine h.enter (fun hr => getElem?_routines_push hr _) (Array.size_push ..)
      (fun id hid => getElem?_functions_push h hid _) (h.sound.enter_external ..) ?_
    refine ⟨_, _, ?_, Array.getElem?_push_size, rfl, rfl, rfl⟩
    rw [← h.size, Array.getElem?_push_size]
  declareFailed h hd := by cases hd
  abandon name h := h.enter id (Array.size_push ..) (fun id hid => getElem?_functions_push h hid _)
    (h.sound.enter_pending name) trivial
  define {d t f name body draft function t'} h hread hg := by
    have hsound : (draft.toDefinition name body).Sound d.vocabulary :=
      Session.sound_toDefinition h.sound hread
    obtain ⟨s, b, hs, rfl, hrealises, rfl⟩ := generate_eq_ok hsound hg
    refine h.enter (fun hr => getElem?_routines_push hr _) ?_
      (fun id hid => getElem?_functions_complete h hid _) (h.sound.enter_compiled _ hsound) ?_
    · rw [Array.size_setIfInBounds, Array.size_push]
    · refine ⟨_, _, b, ?_, Array.getElem?_push_size, rfl, hs, hrealises.congr hsound fun c hc => ?_⟩
      · rw [← h.size, setIfInBounds_push, Array.getElem?_push_size]
      · obtain ⟨w, hw, -⟩ := hc
        have hid := Dictionary.lt_size_of_word? hw
        rw [getElem?_functions_complete h hid, getElem?_functions_push h hid]
  defineFailed h hread hg := h.enter (fun hr => generate_error hg hr) (Array.size_push ..)
    (fun id hid => getElem?_functions_push h hid _) (h.sound.enter_pending _) trivial

theorem linked_withBuiltins : Linked .withBuiltins {} (Array.replicate
    Dictionary.withBuiltins.size none) where
  sound := Dictionary.sound_withBuiltins
  size := Array.size_replicate
  provides hw := by
    obtain ⟨x, -, rfl⟩ := Dictionary.word?_withBuiltins hw
    trivial

end Machine

/-- Every word of a session that executes its code has the routine that it should have. -/
theorem Session.Reachable.linked {s : Session Machine.target} (h : Reachable ({} : Machine) s) :
    Machine.Linked s.dictionary s.target s.functions :=
  h.holds Machine.lasting_linked Machine.linked_withBuiltins

end StackEffect
