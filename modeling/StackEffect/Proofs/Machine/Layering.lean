import StackEffect.Proofs.Machine.Linking

/-!
Layers of words. A definition calls words that were there before it, and its routine calls routines
that were there before it: the calls in the code are those of the definition (`callsOf_of_generate`),
and this outlasts whatever a session is given (`Reachable.layered`).
-/
namespace StackEffect

def Definition.Calls (d : Definition) (callee : Callee) : Prop :=
  ∃ id inputs, d.graph.node? id = some ⟨.call callee, inputs⟩

theorem Definition.Sound.calls {V : Vocabulary} {d : Definition} (hd : d.Sound V) :
    d.Sound d.Calls where
  graph := {
    ordered := hd.graph.ordered
    typed := hd.graph.typed
    bound := hd.graph.bound
    words := fun {id n} hn => by
      obtain ⟨kind, inputs⟩ := n
      have hword := hd.graph.words hn
      cases kind with
      | literal value => trivial
      | argument index type => trivial
      | primitive p => exact hword
      | call callee => exact ⟨id, inputs, hn⟩ }
  argument := hd.argument
  numbered := hd.numbered
  outputs := hd.outputs

/-- The word `id` is a definition that calls the word `id'`. -/
def Dictionary.Calls (d : Dictionary) (id id' : WordId) : Prop :=
  ∃ w f c, d.word? id = some w ∧ w.kind = .compiled f ∧ f.Calls c ∧ c.word = id'

/-- Every call in the code is that of an earlier routine. -/
def Body.CallsBelow (b : Body) (n : RoutineId) : Prop :=
  ∀ targets k arguments, .call targets k arguments ∈ b.code → k < n

namespace Machine

def CallsOf (functions : FunctionTable Machine.target) (f : Definition) (b : Body) : Prop :=
  ∀ targets k arguments, .call targets k arguments ∈ b.code →
    ∃ c, f.Calls c ∧ functions[c.word]? = some (some k)

theorem CallsOf.congr {V : Vocabulary} {functions functions' : FunctionTable Machine.target}
    {b : Body} {f : Definition} (h : CallsOf functions f b) (hf : f.Sound V)
    (hfunctions : ∀ c, V c → functions'[c.word]? = functions[c.word]?) : CallsOf functions' f b := by
  intro targets k arguments hi
  obtain ⟨c, hc, hk⟩ := h targets k arguments hi
  obtain ⟨id, inputs, hn⟩ := hc
  exact ⟨c, ⟨id, inputs, hn⟩, (hfunctions c (hf.graph.words hn)).trans hk⟩

/-- The new routine of a definition calls the routines of the words that the definition calls. -/
theorem callsOf_of_generate {V : Vocabulary} {f : Definition}
    {functions : FunctionTable Machine.target} {m m' : Machine} {function : RoutineId}
    (hf : f.Sound V) (h : Session.generate f functions m = .ok function m') :
    ∃ s b, function = m.routines.size ∧ CallsOf functions f b ∧
      m' = { m with
        building := none
        routines := m.routines.push { name := f.name, symbol := f.name, signature := s,
                                      body := some b } } := by
  obtain ⟨start, stop, s, b, table, operands, hstart, rfl, hgen, -, -, rfl, rfl⟩ :=
    generated_of_generate hf h
  obtain ⟨b', hb', hselected⟩ := selected_of_generated hstart hgen
  cases hb'
  refine ⟨s, _, rfl, fun targets k arguments hi => ?_, rfl⟩
  obtain ⟨n, hn, first, registers, count, hsel⟩ := hselected _ hi
  obtain ⟨id, hid⟩ := Graph.exists_node?_of_mem hn
  obtain ⟨kind, inputs⟩ := n
  cases hsel with
  | @call callee _ _ _ hk => exact ⟨callee, ⟨id, inputs, hid⟩, Option.join_eq_some_iff.mp hk⟩

/-- Words call words before them, and routines call routines before them. -/
structure Layered (d : Dictionary) (m : Machine) (functions : FunctionTable Machine.target) : Prop
    extends Linked d m functions where
  older : ∀ {id id'}, d.Calls id id' → id' < id
  below : ∀ {n : Nat} {routine b}, m.routines[n]? = some routine → routine.body = some b →
    b.CallsBelow n
  calls : ∀ {id w f} {r : Nat} {routine b}, d.word? id = some w → w.kind = .compiled f →
    functions[id]? = some (some r) → m.routines[r]? = some routine → routine.body = some b →
    CallsOf functions f b

section Layered
variable {d : Dictionary} {m m' : Machine} {functions functions' : FunctionTable Machine.target}

theorem Linked.exists_callee (h : Linked d m functions) {id : WordId} {w : Word} {f : Definition}
    (hw : d.word? id = some w) (hk : w.kind = .compiled f) {c : Callee} (hc : f.Calls c) :
    ∃ v, d.word? c.word = some v ∧ v.isUser = true ∧ v.name = c.name := by
  obtain ⟨id, inputs, hn⟩ := hc
  obtain ⟨v, hv, hu, hname, -⟩ := (h.sound.compiled hw hk).graph.words hn
  exact ⟨v, hv, hu, hname⟩

theorem Layered.enter {w : Word} (h : Layered d m functions)
    (hlinked : Linked (d.enter w) m' functions')
    (hm : ∀ {r : Nat} {routine}, m.routines[r]? = some routine → m'.routines[r]? = some routine)
    (hfunctions : ∀ id < d.size, functions'[id]? = functions[id]?)
    (hw : ∀ f, w.kind = .compiled f → f.Sound d.vocabulary)
    (hbelow : ∀ {n : Nat} {routine b}, m'.routines[n]? = some routine → routine.body = some b →
      m.routines[n]? = some routine ∨ b.CallsBelow n)
    (hcalls : ∀ {f} {r : Nat} {routine b}, w.kind = .compiled f →
      functions'[d.size]? = some (some r) → m'.routines[r]? = some routine →
      routine.body = some b → CallsOf functions' f b) :
    Layered (d.enter w) m' functions' where
  toLinked := hlinked
  older {id id'} hid := by
    obtain ⟨v, f, c, hv, hk, ⟨n, inputs, hn⟩, rfl⟩ := hid
    rcases Dictionary.word?_enter_eq_some.mp hv with ⟨rfl, rfl⟩ | hv
    · obtain ⟨v', hv', -⟩ := (hw f hk).graph.words hn
      exact Dictionary.lt_size_of_word? hv'
    · exact h.older ⟨v, f, c, hv, hk, ⟨n, inputs, hn⟩, rfl⟩
  below hroutine hbody := by
    rcases hbelow hroutine hbody with hold | hnew
    · exact h.below hold hbody
    · exact hnew
  calls {id v f r routine b} hv hk hr hroutine hbody := by
    rcases Dictionary.word?_enter_eq_some.mp hv with ⟨rfl, rfl⟩ | hv
    · exact hcalls hk hr hroutine hbody
    · rw [hfunctions id (Dictionary.lt_size_of_word? hv)] at hr
      obtain ⟨r', routine', hr', hroutine', -⟩ :=
        h.exists_routine hv (Word.isUser_iff.mpr (.inr ⟨f, hk⟩))
      cases hr.symm.trans hr'
      cases hroutine.symm.trans (hm hroutine')
      refine (h.calls hv hk hr hroutine' hbody).congr (h.sound.compiled hv hk) fun c hc => ?_
      obtain ⟨v', hv', -⟩ := hc
      exact hfunctions _ (Dictionary.lt_size_of_word? hv')

theorem Linked.lt_routines (h : Linked d m functions) {c : Callee} (hc : d.vocabulary c)
    {k : Nat} (hk : functions[c.word]? = some (some k)) : k < m.routines.size := by
  obtain ⟨v, hv, hu, -⟩ := hc
  obtain ⟨r, routine, hr, hroutine, -⟩ := h.exists_routine hv hu
  cases hk.symm.trans hr
  exact (Array.getElem?_eq_some_iff.mp hroutine).1

theorem Layered.setInline (h : Layered d m functions) (id : WordId) (mark : Bool) :
    Layered (d.setInline id mark) m functions where
  toLinked := h.toLinked.setInline id mark
  older hid := by
    obtain ⟨w, f, c, hw, hk, hc, rfl⟩ := hid
    obtain ⟨v, hv, heq, -⟩ := Dictionary.word?_setInline hw
    rw [heq] at hk
    exact h.older ⟨v, f, c, hv, hk, hc, rfl⟩
  below := h.below
  calls hw hk := by
    obtain ⟨v, hv, heq, -⟩ := Dictionary.word?_setInline hw
    rw [heq] at hk
    exact h.calls hv hk

theorem Layered.of_routines (h : Layered d m functions) (hm : m'.routines = m.routines) :
    Layered d m' functions where
  toLinked := h.toLinked.of_routines hm
  older := h.older
  below := hm ▸ h.below
  calls := hm ▸ h.calls

theorem routines_push_cases {new : Routine} {n : Nat} {routine : Routine}
    (h : (m.routines.push new)[n]? = some routine) :
    n = m.routines.size ∧ routine = new ∨ m.routines[n]? = some routine := by
  rw [Array.getElem?_push] at h
  split_ifs at h with hn
  · exact .inl ⟨hn, (Option.some.inj h).symm⟩
  · exact .inr h

theorem Linked.exists_generate_of_read (h : Linked d m functions) {name : String}
    {body : List Token} {draft : Draft} (hread : Session.readBody d body {} = .ok () draft) :
    ∃ r m', Session.generate (draft.toDefinition name body) (functions.push none) m = .ok r m' :=
  exists_generate h (Session.sound_toDefinition h.sound hread)

theorem lasting_layered : Session.Lasting (T := Machine.target) Layered where
  markInline id h := h.setInline id true
  execute function arguments h := h.of_routines (routines_execute function arguments _)
  takeOutput h := h.of_routines rfl
  declare {d m f name symbol signature function m'} h hv hd := by
    have hlinked := lasting_linked.declare h.toLinked hv hd
    cases hd
    refine h.enter hlinked (fun hr => getElem?_routines_push hr _)
      (fun id hid => getElem?_functions_push h.toLinked hid _) (fun _ hk => nomatch hk) ?_
      (fun hk => nomatch hk)
    intro n routine b hroutine hbody
    rcases routines_push_cases hroutine with ⟨-, rfl⟩ | hold
    · cases hbody
    · exact .inl hold
  declareFailed h hd := by cases hd
  abandon name h := h.enter (lasting_linked.abandon name h.toLinked) id
    (fun id hid => getElem?_functions_push h.toLinked hid _) (fun _ hk => nomatch hk)
    (fun hroutine _ => .inl hroutine) (fun hk => nomatch hk)
  define {d m functions name body draft function m'} h hread hg := by
    have hlinked := lasting_linked.define h.toLinked hread hg
    have hsound : (draft.toDefinition name body).Sound d.vocabulary :=
      Session.sound_toDefinition h.sound hread
    obtain ⟨s, b, rfl, hcalls, rfl⟩ := callsOf_of_generate hsound hg
    have hknown : ∀ c, d.vocabulary c → (functions.push none)[c.word]? = functions[c.word]? :=
      fun c ⟨v, hv, _⟩ => getElem?_functions_push h.toLinked (Dictionary.lt_size_of_word? hv) _
    refine h.enter hlinked (fun hr => getElem?_routines_push hr _)
      (fun id hid => getElem?_functions_complete h.toLinked hid _) ?_ ?_ ?_
    · intro f hk
      cases hk
      exact hsound
    · intro n routine b' hroutine hbody
      rcases routines_push_cases hroutine with ⟨rfl, rfl⟩ | hold
      · cases hbody
        refine .inr fun targets k arguments hi => ?_
        obtain ⟨c, ⟨id, inputs, hn⟩, hk⟩ := hcalls targets k arguments hi
        have hc : d.vocabulary c := hsound.graph.words hn
        exact h.toLinked.lt_routines hc ((hknown c hc).symm.trans hk)
      · exact .inl hold
    · intro f r routine b' hk hr hroutine hbody
      cases hk
      rw [← h.size, setIfInBounds_push, Array.getElem?_push_size] at hr
      cases hr
      rw [Array.getElem?_push_size] at hroutine
      cases hroutine
      cases hbody
      refine hcalls.congr hsound fun c hc => ?_
      obtain ⟨v, hv, -⟩ := hc
      rw [getElem?_functions_complete h.toLinked (Dictionary.lt_size_of_word? hv),
        getElem?_functions_push h.toLinked (Dictionary.lt_size_of_word? hv)]
  defineFailed h hread hg := by
    obtain ⟨r, m', hm'⟩ := h.exists_generate_of_read hread
    cases hm'.symm.trans hg

end Layered

theorem layered_withBuiltins : Layered .withBuiltins {} (Array.replicate
    Dictionary.withBuiltins.size none) where
  toLinked := linked_withBuiltins
  older hid := by
    obtain ⟨w, f, c, hw, hk, -⟩ := hid
    obtain ⟨x, -, rfl⟩ := Dictionary.word?_withBuiltins hw
    cases hk
  below hroutine := by simp at hroutine
  calls hw hk := by
    obtain ⟨x, -, rfl⟩ := Dictionary.word?_withBuiltins hw
    cases hk

end Machine

/-- In a session that executes its code, words and routines call what was there before them. -/
theorem Session.Reachable.layered {s : Session Machine.target} (h : Reachable ({} : Machine) s) :
    Machine.Layered s.dictionary s.target s.functions :=
  h.holds Machine.lasting_layered Machine.layered_withBuiltins

end StackEffect
