import StackEffect.Proofs.Module.Linking
import StackEffect.Proofs.Module.Rereading
import StackEffect.Proofs.Module.Typing

/-!
Bodies of a module are well-formed (`IRBody.WellFormed`): their code runs in the scope of their
parameters and of the strings of the module, and they return what their function returns, several
results as a structure that has been filled place by place. A well-formed body is found again in its
lines (`IRBody.WellFormed.legible`). So every body in the text that is compiled is well-formed, as it
stands there (`compileText_wellFormed`).
-/
namespace StackEffect

def IRFunction.scope (f : IRFunction) (strings : Array String) : IRScope :=
  { parameters := f.parameters, strings }

/-- The body of a function in a module with these strings, where the functions that are `known` may
be called. -/
structure IRBody.WellFormed (known : IRFunction → Prop) (strings : Array String) (f : IRFunction)
    (b : IRBody) : Prop where
  head : b.head = some f
  runs : (f.scope strings).Runs known 0 b.code.toList
  last : ∀ u ∈ b.last.uses, u.2.HasType ((f.scope strings).after b.code.toList) u.1
  results : b.last.results = f.results
  packed : ∀ {results source}, b.last = .aggregate results source → ∃ before outputs,
    b.code.toList = before ++ insertions (targets before).length f.results outputs ∧
      1 < outputs.length ∧ outputs.length = f.results.length ∧
      source = filled (targets before).length outputs.length

theorem IRBody.WellFormed.mono {known known' : IRFunction → Prop} {strings strings' : Array String}
    {f : IRFunction} {b : IRBody} (h : b.WellFormed known strings f)
    (hknown : ∀ f, known f → known' f) (hstrings : strings.size ≤ strings'.size) :
    b.WellFormed known' strings' f where
  head := h.head
  runs := h.runs.mono hknown rfl hstrings (List.Subset.refl _)
  last u hu := (h.last u hu).mono rfl hstrings (List.Subset.refl _)
  results := h.results
  packed := h.packed

namespace IRModule

/-! ### The end of a body -/

section Packing
variable {known : IRFunction → Prop} {scope : IRScope} {first : Nat} {f : IRFunction}
  {outputs : List IROperand}

theorem runs_insertFields (hmany : 1 < f.results.length) (pairs : List (IROperand × IRType))
    (start : Nat)
    (hpairs : ∀ {index : Nat} {x type}, pairs[index]? = some (x, type) →
      x.HasType scope [type] ∧ f.results[start + index]? = some type)
    (hsource : ∀ n, filled first start = some n →
      (IROperand.temporary n).HasType scope f.results) :
    let code := (pairs.zipIdx start).map fun x => insertion first f.results x.2 x.1.1 x.1.2
    scope.Runs known (first + start) code ∧ ∀ n, filled first (start + pairs.length) = some n →
      (IROperand.temporary n).HasType (scope.after code) f.results := by
  induction pairs generalizing start scope with
  | nil => exact ⟨.nil .., by simpa using hsource⟩
  | cons pair pairs ih =>
    obtain ⟨x, type⟩ := pair
    obtain ⟨hx, htype⟩ := @hpairs 0 x type rfl
    have hone : scope.Runs known (first + start) [insertion first f.results start x type] := by
      refine .single rfl (fun u hu => ?_) ⟨hmany, htype⟩
      rcases List.mem_append.mp hu with hu | hu
      · obtain ⟨n, hn, rfl⟩ := Option.map_eq_some_iff.mp (Option.mem_toList.mp hu)
        exact hsource n hn
      · cases List.mem_singleton.mp hu
        exact hx
    have hpairs' : ∀ {index : Nat} {x' type'}, pairs[index]? = some (x', type') →
        x'.HasType (scope.after [insertion first f.results start x type]) [type'] ∧
          f.results[start + 1 + index]? = some type' := by
      intro index x' type' hp
      obtain ⟨hx', htype'⟩ := @hpairs (index + 1) x' type' hp
      rw [Nat.add_right_comm, Nat.add_assoc]
      exact ⟨hx'.after _, htype'⟩
    have hsource' : ∀ n, filled first (start + 1) = some n → (IROperand.temporary n).HasType
        (scope.after [insertion first f.results start x type]) f.results := by
      intro n hn
      rw [filled_succ] at hn
      cases hn
      exact hasType_after (List.mem_singleton_self _) rfl
    obtain ⟨hrest, hlast⟩ := ih (start + 1) hpairs' hsource'
    refine ⟨hone.append hrest, fun n hn => ?_⟩
    rw [List.zipIdx_cons, List.map_cons, ← List.singleton_append, ← IRScope.after_after]
    refine hlast n ?_
    rw [← hn, List.length_cons, Nat.add_right_comm, Nat.add_assoc]

/-- The end of a body puts outputs of the types of the results into a structure. -/
theorem runs_insertions (hmany : 1 < f.results.length)
    (ho : List.Forall₂ (fun type (x : IROperand) => x.HasType scope [type]) f.results outputs) :
    scope.Runs known first (insertions first f.results outputs) ∧
      ∀ n, filled first outputs.length = some n → (IROperand.temporary n).HasType
        (scope.after (insertions first f.results outputs)) f.results := by
  have hpairs : ∀ {index : Nat} {x type}, (outputs.zip f.results)[index]? = some (x, type) →
      x.HasType scope [type] ∧ f.results[0 + index]? = some type := by
    intro index x type hp
    obtain ⟨hx, htype⟩ := List.getElem?_zip_eq_some.mp hp
    obtain ⟨x', hx', htyped⟩ := Pointwise.right_of_left ho htype
    cases hx.symm.trans hx'
    exact ⟨htyped, (Nat.zero_add index).symm ▸ htype⟩
  have hfields : scope.Runs known first (insertions first f.results outputs) ∧ _ :=
    runs_insertFields hmany (outputs.zip f.results) 0 hpairs fun _ hn => nomatch hn
  rwa [List.length_zip, ho.length_eq, Nat.min_self, Nat.zero_add] at hfields

/-- A body is well-formed if its code runs and leaves outputs of the types of the results. -/
theorem wellFormed_ofCode {strings : Array String} {code : List IRInstruction}
    (hruns : (f.scope strings).Runs known 0 code)
    (ho : List.Forall₂ (fun type (x : IROperand) => x.HasType ((f.scope strings).after code) [type])
      f.results outputs) : (IRBody.ofCode f code outputs).WellFormed known strings f := by
  have hl := ho.length_eq
  -- Fewer than two outputs are returned as they are.
  match outputs with
  | [] =>
    exact {
      head := rfl
      runs := by simpa [IRBody.ofCode, packing] using hruns
      last := fun u hu => nomatch hu
      results := (List.length_eq_zero_iff.mp hl).symm
      packed := fun h => nomatch h }
  | [x] =>
    obtain ⟨type, hr⟩ := List.length_eq_one_iff.mp hl
    rw [hr] at ho
    have hx := (List.forall₂_cons.mp ho).1
    have hlast : (IRBody.ofCode f code [x]).last = .value type x := by
      simp [IRBody.ofCode, returned, hr]
    have hcode : (IRBody.ofCode f code [x]).code.toList = code := List.append_nil _
    exact {
      head := rfl
      runs := hcode.symm ▸ hruns
      last := fun u hu => by
        rw [hlast] at hu
        rw [hcode, List.mem_singleton.mp hu]
        exact hx
      results := by rw [hlast, hr]; rfl
      packed := fun h => by simp [hlast] at h }
  | x :: y :: rest =>
    have hmany : 1 < (x :: y :: rest).length := Nat.succ_lt_succ (Nat.zero_lt_succ _)
    obtain ⟨hpacking, htyped⟩ := runs_insertions (hl ▸ hmany) ho
    have hlast : (IRBody.ofCode f code (x :: y :: rest)).last = .aggregate f.results
        (filled (targets code).length (x :: y :: rest).length) := by
      simp [IRBody.ofCode, returned]
    exact {
      head := rfl
      runs := hruns.append ((Nat.zero_add _).symm ▸ hpacking)
      last := fun u hu => by
        rw [hlast, IRReturn.uses] at hu
        obtain ⟨n, hn, rfl⟩ := Option.map_eq_some_iff.mp (Option.mem_toList.mp hu)
        have hn' := htyped n hn
        rw [IRScope.after_after] at hn'
        exact hn'
      results := congrArg IRReturn.results hlast
      packed := fun h => by
        cases hlast.symm.trans h
        exact ⟨code, x :: y :: rest, rfl, hmany, hl.symm, rfl⟩ }

end Packing

/-! ### Bodies of definitions -/

section Body
variable {V : Vocabulary} {known : IRFunction → Prop} {functions : FunctionTable IRModule.target}
  {strings : Array String} {d : Definition} {f : IRFunction} {table : Table IROperand}
  {code : List IRInstruction} {operands : List IROperand}

theorem Lowered.wellFormed (h : Lowered functions strings d.graph.nodes.toList table code)
    (hreads : table.Reads d.outputs operands) (hd : d.Sound V) (hf : f.Typed)
    (hs : d.signature = .ok f.signature) (hknows : Knows known functions V) :
    (IRBody.ofCode f code operands).WellFormed known strings f := by
  have hcode : table.size = _ ∧ (f.scope strings).Runs known 0 code ∧
      Typed d.graph ((f.scope strings).after code) table :=
    h.runs hd.graph (List.append_nil _).symm hknows (fun hn => exists_parameter hd hf hs hn) rfl
  obtain ⟨-, hruns, htyped⟩ := hcode
  have houtputs : List.Forall₂ (Answers? ((f.scope strings).after code)) f.signature.outputs
      operands := Pointwise.comp (Pointwise.symm (Definition.signature_eq_ok.mp hs).2) hreads
    fun _ _ _ htype hx => htyped hx htype
  exact wellFormed_ofCode hruns (Pointwise.comp (Pointwise.symm (Except.mapM_eq_ok.mp hf.results))
    houtputs fun lowered _ _ hl hx => hx lowered hl)

end Body

/-! ### Bodies as they are written -/

end IRModule

/-- The helper function that casts an integer to a string. -/
def IRFunction.intToString : IRFunction where
  symbol := intToStringSymbol
  signature := ⟨[.int32], [.string]⟩
  parameters := [.i32]
  results := [.ptr]

namespace IRInstruction
variable (i : IRInstruction)

@[simp] theorem target?_written : i.written.target? = i.target? := by
  rcases i with _ | _ | ⟨_, _ | _ | _, _⟩ | _ | _ | _ <;> rfl

@[simp] theorem uses_written : i.written.uses = i.uses := by
  rcases i with _ | _ | ⟨_, _ | _ | _, _⟩ | _ | _ | _ <;> rfl

@[simp] theorem assigns?_written : i.written.assigns? = i.assigns? := by
  rcases i with _ | _ | ⟨_, _ | _ | _, _⟩ | _ | _ | _ <;> rfl

variable {i}

theorem Fits.written {known : IRFunction → Prop} (h : i.Fits known) :
    i.written.Fits fun f => known f ∨ f = .intToString := by
  rcases i with _ | _ | ⟨n, _ | _ | _, operand⟩ | _ | _ | _
  case cast.intToString => exact ⟨.intToString, .inr rfl, rfl, rfl, rfl, by simp⟩
  all_goals exact h.mono fun _ => .inl

end IRInstruction

section Written
variable {known : IRFunction → Prop} {scope : IRScope} {first : Nat} {code : List IRInstruction}

theorem targets_written (code : List IRInstruction) :
    targets (code.map IRInstruction.written) = targets code := by
  simp [targets, List.filterMap_map]

theorem IRScope.after_written (scope : IRScope) (code : List IRInstruction) :
    scope.after (code.map IRInstruction.written) = scope.after code := by
  simp [after, List.filterMap_map]

theorem IRScope.Accepts.written (h : scope.Accepts code) :
    scope.Accepts (code.map IRInstruction.written) := by
  induction code generalizing scope with
  | nil => trivial
  | cons i code ih =>
    refine ⟨i.uses_written ▸ h.1, ?_⟩
    have hafter : scope.after [i.written] = scope.after [i] := scope.after_written [i]
    exact hafter ▸ ih h.2

theorem IRScope.Runs.written (h : scope.Runs known first code) :
    scope.Runs (fun f => known f ∨ f = .intToString) first (code.map IRInstruction.written) where
  numbered := by
    rw [targets_written]
    exact h.numbered
  accepted := h.accepted.written
  fits := List.forall_mem_map.mpr fun i hi => (h.fits i hi).written

theorem insertions_written (first : Nat) (results : List IRType) (operands : List IROperand) :
    (insertions first results operands).map IRInstruction.written =
      insertions first results operands := by
  rw [insertions, List.map_map]
  rfl

/-- A body that is well-formed is well-formed as it is written. -/
theorem IRBody.WellFormed.written {strings : Array String} {f : IRFunction} {b : IRBody}
    (h : b.WellFormed known strings f) :
    b.written.WellFormed (fun f => known f ∨ f = .intToString) strings f := by
  have hcode : b.written.code.toList = b.code.toList.map IRInstruction.written :=
    Array.toList_map
  refine ⟨h.head, hcode ▸ h.runs.written, ?_, h.results, fun hlast => ?_⟩
  · rw [hcode, IRScope.after_written]
    exact h.last
  · obtain ⟨before, outputs, hbefore, hmany, hlength, hsource⟩ := h.packed hlast
    refine ⟨before.map IRInstruction.written, outputs, ?_, hmany, hlength, ?_⟩
    · rw [hcode, hbefore, List.map_append, targets_written, insertions_written]
    · rw [targets_written]
      exact hsource

/-! ### Bodies that are read again -/

theorem IROperand.HasType.legible {operand : IROperand} {types : List IRType}
    (h : operand.HasType scope types) : operand.Legible := by
  cases h <;> trivial

theorem IRScope.Accepts.legible (h : scope.Accepts code) {i : IRInstruction} (hi : i ∈ code) :
    ∀ u ∈ i.uses, u.2.Legible := by
  induction code generalizing scope with
  | nil => cases hi
  | cons j code ih =>
    rcases List.mem_cons.mp hi with rfl | hi
    · exact fun u hu => (h.1 u hu).legible
    · exact ih h.2 hi

theorem IRInstruction.legible {i : IRInstruction} (huses : ∀ u ∈ i.uses, u.2.Legible)
    (hfits : i.Fits known) (hknown : ∀ f, known f → IsPlain f.symbol) : i.Legible := by
  cases i with
  | integerOp target op left right => simpa [uses, Legible] using huses
  | floatOp target op left right => simpa [uses, Legible] using huses
  | cast target c operand => exact huses _ (List.mem_singleton_self _)
  | call target results symbol arguments =>
    obtain ⟨f, hf, rfl, -⟩ := hfits
    exact ⟨hknown f hf, fun x hx => huses _ (List.mem_map.mpr ⟨x, hx, rfl⟩)⟩
  | extract => trivial
  | insert target results source type operand index =>
    exact huses _ (List.mem_append_right _ (List.mem_singleton_self _))

/-- A well-formed body is found again in its lines. -/
theorem IRBody.WellFormed.legible {strings : Array String} {f : IRFunction} {b : IRBody}
    (h : b.WellFormed known strings f) (hf : f.Typed) (hplain : IsPlain f.symbol)
    (hknown : ∀ f, known f → IsPlain f.symbol) : b.Legible where
  head := ⟨f, h.head, hf, hplain⟩
  code i hi := IRInstruction.legible (h.runs.accepted.legible hi) (h.runs.fits i hi) hknown
  last := by
    have hlast := h.last
    cases hb : b.last with
    | nothing => trivial
    | value type operand =>
      rw [hb] at hlast
      exact (hlast _ (List.mem_singleton_self _)).legible
    | aggregate results source =>
      obtain ⟨-, outputs, -, hmany, hlength, -⟩ := h.packed hb
      have hresults := h.results
      rw [hb] at hresults
      obtain rfl : results = f.results := hresults
      exact Nat.lt_of_lt_of_eq hmany hlength

end Written

namespace IRModule

/-! ### Bodies of a session -/

/-- The function is that of a word, and has the types of its signature. -/
def Called (d : Dictionary) (m : IRModule) (functions : FunctionTable IRModule.target)
    (f : IRFunction) : Prop :=
  f.Typed ∧ ∃ id w, d.word? id = some w ∧ Answers m functions id w f

/-- Each body is that of the function of a word, and calls functions of words. -/
def WellFormed (d : Dictionary) (m : IRModule) (functions : FunctionTable IRModule.target) : Prop :=
  ∀ b ∈ m.bodies, ∃ f, Called d m functions f ∧ b.WellFormed (Called d m functions) m.strings f

section Session
variable {d : Dictionary} {m m' : IRModule} {functions : FunctionTable IRModule.target}
  {f : IRFunction}

theorem Linked.knows (h : Linked d m functions) {functions' : FunctionTable IRModule.target}
    (hfunctions : ∀ id < d.size, functions'[id]? = functions[id]?) :
    Knows (Called d m functions) functions' d.vocabulary := by
  rintro c f ⟨w, hw, hu, -, hs⟩ hf
  obtain ⟨f', hf', hsignature, b, hmem⟩ := h.answers hw hu
  rw [hfunctions _ (Dictionary.lt_size_of_word? hw), hf'] at hf
  cases hf
  have htyped := h.coherent.typed hmem
  exact ⟨⟨htyped, c.word, w, hw, hf', hsignature, b, hmem⟩, htyped,
    Except.ok.inj (hsignature.symm.trans hs)⟩

theorem Called.enter (hf : Called d m functions f) (h : Linked d m functions)
    (hm : ∀ {f b}, (f, b) ∈ m.declared → ∃ b', (f, b') ∈ m'.declared) (w : Word)
    (x : Option IRFunction) : Called (d.enter w) m' (functions.push x) f := by
  obtain ⟨htyped, id, v, hv, hfunction, hs, b, hmem⟩ := hf
  exact ⟨htyped, id, v, Dictionary.word?_enter_of_some w hv,
    (h.getElem?_push x _ (Dictionary.lt_size_of_word? hv)).trans hfunction, hs, hm hmem⟩

theorem Called.setInline (hf : Called d m functions f) (id : WordId) (mark : Bool) :
    Called (d.setInline id mark) m functions f := by
  obtain ⟨htyped, i, w, hw, hanswers⟩ := hf
  obtain ⟨isInline, hv⟩ := Dictionary.word?_setInline_of_some mark hw
  exact ⟨htyped, i, { w with isInline }, hv, hanswers⟩

theorem WellFormed.mono {d' : Dictionary} {functions' : FunctionTable IRModule.target}
    (h : WellFormed d m functions) (hcalled : ∀ f, Called d m functions f → Called d' m' functions' f)
    (hbodies : m'.bodies = m.bodies) (hstrings : m'.strings = m.strings) :
    WellFormed d' m' functions' := by
  intro b hb
  obtain ⟨f, hf, hwell⟩ := h b (hbodies ▸ hb)
  exact ⟨f, hcalled f hf, hwell.mono hcalled (hstrings ▸ Nat.le_refl _)⟩

/-- The body of a definition is well-formed like those before it. -/
theorem WellFormed.define (h : WellFormed d m functions) (hl : Linked d m functions)
    {name : String} {body : Definition} (hsound : body.Sound d.vocabulary)
    {m₁ : IRModule} {table : Table IROperand} {code : List IRInstruction}
    {operands : List IROperand} {strings : Array String} {uses : Bool}
    (hs : body.signature = .ok f.signature) (hf : f.Typed)
    (hd : declare name name f.signature m = .ok f m₁)
    (hlowered : Lowered (functions.push none) strings body.graph.nodes.toList table code)
    (hreads : table.Reads body.outputs operands)
    (hstrings : m.strings.toList <+: strings.toList) :
    WellFormed (d.enter (.compiled name body)) (m₁.withBody f code operands strings uses)
      (functions.push (some f)) := by
  have hcoherent := hl.coherent.declare _ hd
  obtain ⟨⟨b, hnew⟩, hold⟩ := mem_of_declare hl.coherent _ hd
  have hcalled : ∀ f', Called d m functions f' → Called (d.enter (.compiled name body))
      (m₁.withBody f code operands strings uses) (functions.push (some f)) f' := fun _ hf' =>
    hf'.enter hl (fun hmem => mem_withBody hcoherent (hold hmem)) _ _
  intro b hb
  rw [bodies_withBody, bodies_of_declare _ hd] at hb
  rw [strings_withBody]
  rcases Array.mem_push.mp hb with hb | rfl
  · obtain ⟨f', hf', hwell⟩ := h b hb
    exact ⟨f', hcalled f' hf', hwell.mono hcalled hstrings.length_le⟩
  · refine ⟨f, ⟨hf, d.size, _, Dictionary.word?_enter_eq_some.mpr (.inl ⟨rfl, rfl⟩), ?_, hs,
      mem_withBody hcoherent hnew⟩, ?_⟩
    · rw [← hl.size, Array.getElem?_push_size]
    · have hwell := hlowered.wellFormed hreads hsound hf hs (hl.knows (hl.getElem?_push none))
      exact hwell.mono hcalled (Nat.le_refl _)

theorem lasting_wellFormed : Session.Lasting (T := IRModule.target) fun d m functions =>
    Linked d m functions ∧ WellFormed d m functions where
  markInline id hi := ⟨lasting_linked.markInline id hi.1,
    hi.2.mono (fun _ hf => hf.setInline id true) rfl rfl⟩
  execute _ _ hi := hi
  takeOutput hi := hi
  declare {d m functions name symbol signature f m'} hi hv hd := by
    refine ⟨lasting_linked.declare hi.1 hv hd, ?_⟩
    obtain ⟨-, hold⟩ := mem_of_declare hi.1.coherent name hd
    exact hi.2.mono (fun _ hf => hf.enter hi.1 (fun hmem => ⟨_, hold hmem⟩) _ _)
      (bodies_of_declare name hd) (strings_of_declare name hd)
  declareFailed hi hd := by
    obtain ⟨rfl, -⟩ := declare_eq_error "" hd
    exact hi
  abandon name hi := ⟨lasting_linked.abandon name hi.1,
    hi.2.mono (fun _ hf => hf.enter hi.1 (fun hmem => ⟨_, hmem⟩) _ _) rfl rfl⟩
  define {d m functions name body draft g m'} hi hread hg := by
    have hsound : (draft.toDefinition name body).Sound d.vocabulary :=
      Session.sound_toDefinition hi.1.sound hread
    refine ⟨lasting_linked.define hi.1 hread hg, ?_⟩
    obtain ⟨m₁, table, code, operands, strings, uses, hs, htyped, hd, hlowered, hreads, hprefix, rfl⟩ :=
      generate_eq_ok hsound hg
    rw [hi.1.complete_eq]
    exact hi.2.define hi.1 hsound hs htyped hd hlowered hreads hprefix
  defineFailed {d m functions name body draft e m'} hi hread hg := by
    obtain ⟨rfl, -⟩ := hi.1.generate_eq_error hread hg
    exact ⟨lasting_linked.abandon name hi.1,
      hi.2.mono (fun _ hf => hf.enter hi.1 (fun hmem => ⟨_, hmem⟩) _ _) rfl rfl⟩

theorem wellFormed_empty (d : Dictionary) (name triple : String)
    (functions : FunctionTable IRModule.target) : WellFormed d { name, triple } functions := by
  intro b hb
  simp at hb

end Session
end IRModule

theorem Session.Reachable.wellFormed_module {name triple : String} {s : Session IRModule.target}
    (h : Reachable ({ name, triple } : IRModule) s) :
    IRModule.WellFormed s.dictionary s.target s.functions :=
  (h.holds IRModule.lasting_wellFormed
    ⟨IRModule.linked_withBuiltins name triple, IRModule.wellFormed_empty _ name triple _⟩).2

namespace IRModule
variable {d : Dictionary} {m : IRModule} {functions : FunctionTable IRModule.target}
  {fs : List IRFunction}

theorem WellFormed.legible (h : WellFormed d m functions) (hd : Defines d m functions fs) :
    ∀ b ∈ m.bodies, b.Legible := by
  intro b hb
  obtain ⟨f, ⟨hf, -, -, -, -, -, b, hmem⟩, hwell⟩ := h b hb
  refine hwell.legible hf (hd.plain hmem) fun g hg => ?_
  obtain ⟨-, -, -, -, -, -, b', hmem'⟩ := hg
  exact hd.plain hmem'

/-- A body as it is written for a definition: it is that of the function of the word, and calls
functions of words, or the helper. -/
def BodyOf (d : Dictionary) (m : IRModule) (functions : FunctionTable IRModule.target) (id : WordId)
    (b : IRBody) : Prop :=
  ∃ f, functions[id]? = some (some f) ∧ Called d m functions f ∧
    b.WellFormed (fun g => Called d m functions g ∨ g = .intToString) m.strings f

/-- Behind the heading of the module, the bodies of the definitions are read, in their order. -/
theorem WellFormed.read (h : WellFormed d m functions) (hd : Defines d m functions fs) :
    ∃ bodies, bodies? (textLines (linesText m.contentLines)) = some bodies ∧
      (textLines (linesText m.contentLines)).filterMap constant? =
        m.strings.toList.zipIdx.map (fun x => StringConstant.ofText x.2 x.1) ∧
      List.Forall₂ (BodyOf d m functions) d.definitions bodies := by
  have hlegible := h.legible hd
  have hlined : m.Lined :=
    ⟨fun b hb => (hlegible b hb).lined, fun hmem => (hd.plain hmem).not_mem⟩
  rw [hlined.textLines_contentLines]
  refine ⟨_, bodies?_contentLines hlegible, m.constants_contentLines, ?_⟩
  rw [List.forall₂_map_right_iff]
  refine Pointwise.comp hd.stand (Pointwise.symm (Pointwise.with_mem hd.heads)) ?_
  rintro id f b hf ⟨hb, hhead⟩
  obtain ⟨g, hg, hwell⟩ := h b (Array.mem_toList_iff.mp hb)
  cases hhead.symm.trans hwell.head
  exact ⟨f, hf, hg, hwell.written⟩

end IRModule

end StackEffect
