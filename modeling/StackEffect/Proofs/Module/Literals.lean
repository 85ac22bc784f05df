import StackEffect.Proofs.Module.Lines
import StackEffect.Proofs.Recording

/-!
The literals that a module is asked for. Equal texts share a constant and different ones have
constants of their own, and the text of the module has a line for each of them that holds it
(`strings_of_driven`). This holds for whatever a module is asked, in any order; what it is handed may
break its lines, but cannot as long as it holds no line break itself (`maintains_watched`).
-/
namespace StackEffect
namespace IRModule

/-! ### Literals -/

/-- The literals that the record has are the strings, each of them once, and a literal has been
answered by the number of its string. -/
structure Numbered (strings : Array String) (record : List (Exchange IRModule.target)) : Prop where
  distinct : strings.toList.Nodup
  answered : ∀ {text answer}, ⟨.literal (.str text), answer⟩ ∈ record →
    ∃ n, answer = .ok [.string n] ∧ strings[n]? = some text
  asked : ∀ {text}, text ∈ strings → ∃ answer, ⟨.literal (.str text), answer⟩ ∈ record

section Numbered
variable {strings : Array String} {record : List (Exchange IRModule.target)}

theorem Numbered.of_strings {strings' : Array String} (h : Numbered strings record)
    (heq : strings' = strings) : Numbered strings' record := heq ▸ h

theorem Numbered.eq_of_getElem? (h : Numbered strings record) {m n : Nat} {text : String}
    (hm : strings[m]? = some text) (hn : strings[n]? = some text) : m = n := by
  rw [← Array.getElem?_toList] at hm hn
  obtain ⟨hlt, -⟩ := List.getElem?_eq_some_iff.mp hm
  exact (List.getElem?_inj hlt h.distinct).mp (hm.trans hn.symm)

theorem numbered_empty : Numbered #[] [] := ⟨List.nodup_nil, nofun, nofun⟩

theorem Numbered.note (h : Numbered strings record) {x : Exchange IRModule.target}
    (hx : ∀ text, x.query ≠ .literal (.str text)) : Numbered strings (record ++ [x]) where
  distinct := h.distinct
  answered hmem := by
    rcases List.mem_append.mp hmem with hold | hnew
    · exact h.answered hold
    · cases List.mem_singleton.mp hnew
      exact absurd rfl (hx _)
  asked hmem := by
    obtain ⟨answer, hold⟩ := h.asked hmem
    exact ⟨answer, List.mem_append_left _ hold⟩

theorem Numbered.repeat (h : Numbered strings record) {text : String} {n : Nat}
    (hn : strings[n]? = some text) :
    Numbered strings (record ++ [⟨.literal (.str text), .ok [.string n]⟩]) where
  distinct := h.distinct
  answered hmem := by
    rcases List.mem_append.mp hmem with hold | hnew
    · exact h.answered hold
    · cases List.mem_singleton.mp hnew
      exact ⟨n, rfl, hn⟩
  asked hmem := by
    obtain ⟨answer, hold⟩ := h.asked hmem
    exact ⟨answer, List.mem_append_left _ hold⟩

theorem Numbered.push (h : Numbered strings record) {text : String} (hnew : text ∉ strings) :
    Numbered (strings.push text)
      (record ++ [⟨.literal (.str text), .ok [.string strings.size]⟩]) where
  distinct := by
    rw [Array.toList_push]
    refine List.Nodup.append h.distinct (List.nodup_singleton _) fun text' hmem hlast => ?_
    rw [List.mem_singleton.mp hlast] at hmem
    exact hnew (Array.mem_toList_iff.mp hmem)
  answered hmem := by
    rcases List.mem_append.mp hmem with hold | hlast
    · obtain ⟨n, hanswer, hn⟩ := h.answered hold
      obtain ⟨hlt, -⟩ := Array.getElem?_eq_some_iff.mp hn
      exact ⟨n, hanswer, by rw [getElem?_push_of_lt hlt, hn]⟩
    · cases List.mem_singleton.mp hlast
      exact ⟨_, rfl, Array.getElem?_push_size⟩
  asked hmem := by
    rcases Array.mem_push.mp hmem with hold | rfl
    · obtain ⟨answer, hanswer⟩ := h.asked hold
      exact ⟨answer, List.mem_append_left _ hanswer⟩
    · exact ⟨_, List.mem_append_right _ (List.mem_singleton.mpr rfl)⟩

end Numbered

/-- What is known of the strings and of the record. -/
abbrev NumberedState (s : IRModule × List (Exchange IRModule.target)) : Prop :=
  Numbered s.1.strings s.2

theorem maintains_noted {α : Type} (query : Query IRModule.target) {operands : α → List IROperand}
    {action : Action IRModule α} (hquery : ∀ text, query ≠ .literal (.str text))
    (haction : ∀ strings, Steady (· = strings) action) :
    (query.noted operands action).Maintains NumberedState := by
  intro s hs
  have hsteady := haction s.1.strings s.1 rfl
  unfold Query.noted
  cases h : action s.1 with
  | ok a m =>
    rw [h] at hsteady
    exact hs.note hquery |>.of_strings hsteady
  | error e m =>
    rw [h] at hsteady
    exact ⟨hs.note hquery |>.of_strings hsteady.1, trivial⟩

theorem maintains_literal (value : Value) :
    (IRModule.target.recorded.literal value).Maintains NumberedState := by
  cases value with
  | int n => exact maintains_noted (.literal (.int n)) (fun _ => nofun) fun _ => .pure _
  | float x => exact maintains_noted (.literal (.float x)) (fun _ => nofun) fun _ => .pure _
  | str text =>
    intro s hs
    rcases stringGlobal_cases text s.1 with ⟨n, hglobal, hn⟩ | ⟨hnew, hglobal⟩
    · have hliteral : emitLiteral (.str text) s.1 = .ok (.string n) s.1 :=
        Action.map_eq_ok.mpr ⟨n, hglobal, rfl⟩
      dsimp only [Target.recorded, Query.noted]
      rw [hliteral]
      exact hs.repeat hn
    · have hliteral : emitLiteral (.str text) s.1 = .ok (.string s.1.strings.size)
          { s.1 with strings := s.1.strings.push text } :=
        Action.map_eq_ok.mpr ⟨_, hglobal, rfl⟩
      dsimp only [Target.recorded, Query.noted]
      rw [hliteral]
      exact hs.push hnew

theorem maintains_within {α : Type} {action : Action IRModule α}
    (haction : ∀ strings, Steady (· = strings) action) :
    (action.within Prod.fst fun m (s : IRModule × List (Exchange IRModule.target)) =>
      (m, s.2)).Maintains NumberedState := by
  intro s hs
  have hsteady := haction s.1.strings s.1 rfl
  rw [Action.within_apply]
  cases h : action s.1 with
  | ok a m =>
    rw [h] at hsteady
    exact hs.of_strings hsteady
  | error e m =>
    rw [h] at hsteady
    exact ⟨hs.of_strings hsteady.1, trivial⟩

/-- Whatever a module is asked, its strings are the literals among it. -/
theorem maintains_numbered : IRModule.target.recorded.Maintains NumberedState where
  declare name symbol signature := maintains_within fun _ => steady_declare name symbol signature
  beginBody f := by
    have h : ((Query.beginBody (T := IRModule.target) f).noted (fun _ => [])
        (beginBody f)).Maintains NumberedState :=
      maintains_noted (.beginBody f) (fun _ => nofun) fun _ => steady_beginBody f
    exact h
  argument index type :=
    maintains_noted (.argument index type) (fun _ => nofun) fun _ => steady_emitArgument index type
  literal := maintains_literal
  primitive p operands := maintains_noted (.primitive p operands) (fun _ => nofun) fun _ =>
    steady_emitPrimitive p operands
  call f operands :=
    maintains_noted (.call f operands) (fun _ => nofun) fun _ => steady_emitCall f operands
  finishBody f operands := maintains_noted (.finishBody f operands) (fun _ => nofun) fun _ =>
    steady_finishBody f operands
  execute f values := maintains_within fun _ => steady_execute f values
  takeOutput _ hs := hs

/-! ### Line breaks -/

def LinedOperands (operands : List IROperand) : Prop := ∀ x ∈ operands, '\n' ∉ x.text.toList

instance (operands : List IROperand) : Decidable (LinedOperands operands) :=
  inferInstanceAs (Decidable (∀ _ ∈ _, _))

/-- What is handed over in a query holds no line break. -/
def LinedQuery : Query IRModule.target → Prop
  | .beginBody (f : IRFunction) => '\n' ∉ f.symbol.toList
  | .primitive _ operands => LinedOperands operands
  | .call (f : IRFunction) operands => '\n' ∉ f.symbol.toList ∧ LinedOperands operands
  | .finishBody _ operands => LinedOperands operands
  | .argument .. | .literal .. => True

instance : DecidablePred LinedQuery := fun query => by
  cases query <;> unfold LinedQuery <;> infer_instance

/-- Neither the finished bodies nor the one that is being built have been handed a line break, and
the module has not been named with one. -/
structure LinedState (m : IRModule) : Prop extends Lined m where
  name : '\n' ∉ m.name.toList
  triple : '\n' ∉ m.triple.toList
  head : ∀ f, m.head = some f → '\n' ∉ f.symbol.toList
  code : ∀ i ∈ m.code, ∀ text ∈ i.handed, '\n' ∉ text.toList

theorem maintains_append {i : IRInstruction} (hi : ∀ text ∈ i.handed, '\n' ∉ text.toList) :
    (append i).Maintains LinedState :=
  .modify fun m hm => { hm with
    code := fun j hj => by
      rcases Array.mem_push.mp hj with hj | rfl
      · exact hm.code j hj
      · exact hi }

theorem maintains_newTemporary : newTemporary.Maintains LinedState := fun _ hm => { hm with }

theorem maintains_declare (name symbol : String) (signature : Signature) :
    (declare name symbol signature).Maintains LinedState := by
  intro m hm
  cases h : declare name symbol signature m with
  | error e m' =>
    obtain ⟨rfl, -⟩ := declare_eq_error name h
    exact ⟨hm, trivial⟩
  | ok f m' =>
    have hplain := isPlain_of_declare name h
    rw [declare_eq] at h
    split at h
    · cases h
    · cases h
    · split_ifs at h
      · cases h
        exact hm
      · cases h
        refine { hm with declared := fun hmem => ?_ }
        rcases Array.mem_push.mp hmem with hold | hnew
        · exact hm.declared hold
        · cases hnew
          exact hplain.not_mem

theorem maintains_emitLiteral (value : Value) : (emitLiteral value).Maintains LinedState := by
  cases value with
  | int n => exact .pure _
  | float x => exact .pure _
  | str s =>
    refine .map _ fun m hm => ?_
    rcases stringGlobal_cases s m with ⟨n, hn, -⟩ | ⟨-, hnew⟩
    · rwa [hn]
    · rw [hnew]
      exact { hm with }

theorem maintains_emitPrimitive (p : Primitive) {operands : List IROperand}
    (ho : LinedOperands operands) : (emitPrimitive p operands).Maintains LinedState := by
  unfold emitPrimitive
  refine .bind maintains_newTemporary fun target => ?_
  split
  · rw [LinedOperands, List.forall_mem_cons, List.forall_mem_cons] at ho
    exact .bind (maintains_append (by simp [IRInstruction.handed, ho])) fun _ => .pure _
  · rw [LinedOperands, List.forall_mem_cons, List.forall_mem_cons] at ho
    exact .bind (maintains_append (by simp [IRInstruction.handed, ho])) fun _ => .pure _
  · rw [LinedOperands, List.forall_mem_cons] at ho
    exact .bind (.modify fun _ hm => { hm with }) fun _ =>
      .bind (maintains_append (by simp [IRInstruction.handed, ho])) fun _ => .pure _
  · rw [LinedOperands, List.forall_mem_cons] at ho
    exact .bind (maintains_append (by simp [IRInstruction.handed, ho])) fun _ => .pure _
  · exact .bind (.throw trivial) fun _ => .pure _

theorem maintains_emitCall {f : IRFunction} {operands : List IROperand}
    (hf : '\n' ∉ f.symbol.toList) (ho : LinedOperands operands) :
    (emitCall f operands).Maintains LinedState := by
  have hcall (n : Option Nat) : (append (.call n f.results f.symbol
      (f.parameters.zip operands))).Maintains LinedState := by
    refine maintains_append (List.forall_mem_cons.mpr ⟨hf, List.forall_mem_map.mpr fun x hx => ?_⟩)
    exact ho x.2 (List.of_mem_zip hx).2
  unfold emitCall
  dsimp only
  split_ifs
  · exact .bind (hcall none) fun _ => .pure _
  · exact .bind maintains_newTemporary fun n => .bind (hcall n) fun _ => .pure _
  · refine .bind maintains_newTemporary fun n => .bind (hcall n) fun _ => .mapM (fun index => ?_) _
    exact .bind maintains_newTemporary fun field =>
      .bind (maintains_append (List.forall_mem_nil _)) fun _ => .pure _

theorem maintains_emitAggregate (f : IRFunction) {outputs : List IROperand}
    (ho : LinedOperands outputs) : (emitAggregate f outputs).Maintains LinedState := by
  refine .foldlM (fun x hx source => .bind maintains_newTemporary fun target => ?_) _
  have hmem : x.1.1 ∈ outputs := (List.of_mem_zip (List.fst_mem_of_mem_zipIdx hx)).1
  exact .bind (maintains_append (List.forall_mem_singleton.mpr (ho _ hmem))) fun _ => .pure _

theorem markDefined_eq (m : IRModule) (symbol : String) :
    ∃ declared, m.markDefined symbol = { m with declared } ∧
      ∀ {f b}, (f, b) ∈ declared → ∃ b', (f, b') ∈ m.declared := by
  unfold markDefined
  split
  · refine ⟨_, rfl, fun {f b} hmem => ?_⟩
    obtain ⟨i, hi, heq⟩ := Array.mem_iff_getElem.mp hmem
    rw [Array.getElem_modify] at heq
    split_ifs at heq
    · cases heq
      exact ⟨_, Array.getElem_mem _⟩
    · exact ⟨b, heq ▸ Array.getElem_mem _⟩
  · exact ⟨m.declared, rfl, fun hmem => ⟨_, hmem⟩⟩

theorem maintains_finish (symbol : String) {last : IRReturn}
    (hlast : ∀ text ∈ last.handed, '\n' ∉ text.toList) :
    (modify fun m : IRModule =>
      { m with bodies := m.bodies.push ⟨m.head, m.code, last⟩, head := none, code := #[] }.markDefined
        symbol : Action IRModule Unit).Maintains LinedState := by
  refine .modify fun m hm => ?_
  obtain ⟨declared, heq, hdeclared⟩ := markDefined_eq
    { m with bodies := m.bodies.push ⟨m.head, m.code, last⟩, head := none, code := #[] } symbol
  rw [heq]
  have hbody : IRBody.Lined ⟨m.head, m.code, last⟩ := ⟨hm.head, hm.code, hlast⟩
  exact { hm with
    bodies := fun b hb => by
      rcases Array.mem_push.mp hb with hb | rfl
      · exact hm.bodies b hb
      · exact hbody
    declared := fun hmem => hm.declared (hdeclared hmem).choose_spec
    head := nofun
    code := fun i hi => absurd hi (Array.not_mem_empty i) }

theorem maintains_finishBody (f : IRFunction) {operands : List IROperand}
    (ho : LinedOperands operands) : (finishBody f operands).Maintains LinedState := by
  unfold finishBody emitReturn
  split
  · exact maintains_finish f.symbol (List.forall_mem_nil _)
  · exact .throw trivial
  · exact maintains_finish f.symbol (List.forall_mem_singleton.mpr (ho _ List.mem_cons_self))
  · rw [bind_map_left]
    exact .bind (maintains_emitAggregate f ho) fun _ => maintains_finish f.symbol (List.forall_mem_nil _)

/-- A module whose record hands over no line break has none but those between its lines. -/
abbrev WatchedState (s : IRModule × List (Exchange IRModule.target)) : Prop :=
  (∀ x ∈ s.2, LinedQuery x.query) → LinedState s.1

theorem maintains_watchedQuery {α : Type} (query : Query IRModule.target)
    {operands : α → List IROperand} {action : Action IRModule α}
    (haction : LinedQuery query → action.Maintains LinedState) :
    (query.noted operands action).Maintains WatchedState := by
  intro s hs
  -- What has been asked before stands in the record in front of the query.
  have hstep : ∀ {answer}, (∀ x ∈ s.2 ++ [⟨query, answer⟩], LinedQuery x.query) →
      action.KeepsAt LinedState (fun _ => True) s.1 := fun hall =>
    haction (hall _ (List.mem_append_right _ (List.mem_singleton_self _))) s.1
      (hs fun x hx => hall x (List.mem_append_left _ hx))
  unfold Query.noted
  cases h : action s.1 with
  | ok a m =>
    intro hall
    have hkept := hstep hall
    rwa [Action.KeepsAt, h] at hkept
  | error e m =>
    refine ⟨fun hall => ?_, trivial⟩
    have hkept := hstep hall
    rw [Action.KeepsAt, h] at hkept
    exact hkept.1

theorem maintains_unwatched {α : Type} {action : Action IRModule α}
    (haction : action.Maintains LinedState) :
    (action.within Prod.fst fun m (s : IRModule × List (Exchange IRModule.target)) =>
      (m, s.2)).Maintains WatchedState := by
  intro s hs
  rw [Action.within_apply]
  cases h : action s.1 with
  | ok a m =>
    intro hall
    have hkept := haction s.1 (hs hall)
    rwa [h] at hkept
  | error e m =>
    refine ⟨fun hall => ?_, trivial⟩
    have hkept := haction s.1 (hs hall)
    rw [h] at hkept
    exact hkept.1

/-- Whatever a module is asked, it breaks no lines unless a line break is handed over. -/
theorem maintains_watched : IRModule.target.recorded.Maintains WatchedState where
  declare name symbol signature := maintains_unwatched (maintains_declare name symbol signature)
  beginBody f := by
    have h : ((Query.beginBody (T := IRModule.target) f).noted (fun _ => [])
        (beginBody f)).Maintains WatchedState :=
      maintains_watchedQuery (.beginBody f) fun hf => .modify fun m hm => { hm with
        head := fun g hg => by
          cases hg
          exact hf
        code := fun i hi => absurd hi (Array.not_mem_empty i) }
    exact h
  argument index type := maintains_watchedQuery (.argument index type) fun _ =>
    .bind (.discard (.ofExcept fun _ _ => trivial)) fun _ => .pure _
  literal value := maintains_watchedQuery (.literal value) fun _ => maintains_emitLiteral value
  primitive p operands :=
    maintains_watchedQuery (.primitive p operands) (maintains_emitPrimitive p)
  call f operands :=
    maintains_watchedQuery (.call f operands) fun h => maintains_emitCall h.1 h.2
  finishBody f operands :=
    maintains_watchedQuery (.finishBody f operands) (maintains_finishBody f)
  execute f values := by
    have h : (IRModule.target.execute f values).Maintains LinedState := fun _ hm => ⟨hm, trivial⟩
    exact maintains_unwatched h
  takeOutput _ hs := hs

/-! ### The text of the module -/

/-- For whatever a module is asked, two literals are answered by the same global just when they are
the same text. The lines of constants in the text of the module are one for each of the texts: it has
the name that was answered and holds the text. A line that starts with the sign of a global is one of
them. Where no line break has been handed over, in the name of the module or its triple, the symbol
of a function or an operand, these lines are what the text is cut into at its line breaks. -/
theorem strings_of_driven {name triple : String} {s : IRModule × List (Exchange IRModule.target)}
    (h : IRModule.target.recorded.Driven ({ name, triple }, []) s) :
    (∀ text text' answer answer', ⟨.literal (.str text), answer⟩ ∈ s.2 →
      ⟨.literal (.str text'), answer'⟩ ∈ s.2 → ∃ n n', answer = .ok [.string n] ∧
        answer' = .ok [.string n'] ∧
        ((IROperand.string n).text = (IROperand.string n').text ↔ text = text')) ∧
    ∃ texts : List String, texts.Nodup ∧
      (∀ text, text ∈ texts ↔ ∃ answer, ⟨.literal (.str text), answer⟩ ∈ s.2) ∧
      ∃ lines, s.1.text = linesText lines ∧
        List.Forall₂ (fun text (c : StringConstant) => c.Encodes text ∧
          ∀ answer, ⟨.literal (.str text), answer⟩ ∈ s.2 →
            ∃ n, answer = .ok [.string n] ∧ (IROperand.string n).text = c.name)
          texts (lines.filterMap constant?) ∧
        (∀ line ∈ lines, line.toList.head? = some '@' → (constant? line).isSome = true) ∧
        ('\n' ∉ name.toList → '\n' ∉ triple.toList → (∀ x ∈ s.2, LinedQuery x.query) →
          textLines s.1.text = lines) := by
  have hs : NumberedState s := h.holds maintains_numbered numbered_empty
  -- The texts are the strings of the module: the number of a string is its place among them.
  refine ⟨fun text text' answer answer' hmem hmem' => ?_, s.1.strings.toList, hs.distinct,
    fun text => ⟨fun hmem => hs.asked (Array.mem_toList_iff.mp hmem), ?_⟩, s.1.lines, rfl, ?_,
    fun _ => isSome_constant?, fun hname htriple hqueries => ?_⟩
  · obtain ⟨n, hanswer, hn⟩ := hs.answered hmem
    obtain ⟨n', hanswer', hn'⟩ := hs.answered hmem'
    refine ⟨n, n', hanswer, hanswer', fun htext => ?_, fun htext => ?_⟩
    · rw [stringText_injective htext, hn'] at hn
      exact (Option.some.inj hn).symm
    · rw [hs.eq_of_getElem? hn (htext ▸ hn')]
  · rintro ⟨answer, hmem⟩
    obtain ⟨n, -, hn⟩ := hs.answered hmem
    exact Array.mem_toList_iff.mpr (Array.mem_of_getElem? hn)
  · rw [constants_lines, List.forall₂_map_right_iff, List.forall₂_iff_get]
    refine ⟨List.length_zipIdx.symm, fun i hi hi' => ?_⟩
    simp only [List.get_eq_getElem, List.getElem_zipIdx, Nat.zero_add]
    refine ⟨StringConstant.encodes_ofText i _, fun answer hmem => ?_⟩
    obtain ⟨n, hanswer, hn⟩ := hs.answered hmem
    have heq : n = i := hs.eq_of_getElem? hn (by simp)
    exact ⟨n, hanswer, congrArg stringText heq⟩
  · have hstart : LinedState { name, triple } := {
      bodies := by simp
      declared := by simp
      name := hname
      triple := htriple
      head := nofun
      code := by simp }
    have hlined : LinedState s.1 := h.holds maintains_watched (fun _ => hstart) hqueries
    exact hlined.textLines_text hlined.name hlined.triple

/-- A string that is asked for twice, and another one. -/
theorem strings_of_driven_twice : ∃ s : IRModule × List (Exchange IRModule.target),
    IRModule.target.recorded.Driven ({ name := "twice", triple := "x86_64" }, []) s ∧
    s.2.length = 3 ∧ ∃ texts : List String, texts.Nodup ∧ texts.length = 2 ∧
      List.Forall₂ (fun text (c : StringConstant) => c.Encodes text) texts
        ((textLines s.1.text).filterMap constant?) := by
  have hstart : IRModule.target.recorded.Driven ({ name := "twice", triple := "x86_64" }, [])
    ({ name := "twice", triple := "x86_64" }, []) := .start
  have hdriven := ((hstart.literal (.str "say \"ah\"\n")).literal (.str "é\x00")).literal
    (.str "say \"ah\"\n")
  obtain ⟨-, texts, hdistinct, -, lines, -, hlines, -, htext⟩ := strings_of_driven hdriven
  have hcut := htext (by decide) (by decide) (by decide +kernel)
  rw [← hcut] at hlines
  refine ⟨_, hdriven, by decide +kernel, texts, hdistinct, ?_, hlines.imp fun _ _ h => h.1⟩
  rw [hlines.length_eq]
  decide +kernel

end IRModule
end StackEffect
