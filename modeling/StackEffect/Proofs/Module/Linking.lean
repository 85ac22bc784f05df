import StackEffect.Proofs.Module.Lowering
import StackEffect.Proofs.Session.Typing
import StackEffect.Proofs.Targets

/-!
Words and functions of a module. In a session that generates a module, each word that has been entered
has a function with its signature, which has been declared (`Linked`). Then only a type without a
counterpart keeps a definition out of the module (`generate_eq_error`), and such a definition leaves
no trace there.
-/
namespace StackEffect

namespace IRModule
variable {d : Dictionary} {m m' : IRModule} {functions functions' : FunctionTable IRModule.target}

theorem Coherent.of_declared (h : m.Coherent) (hm : m'.declared = m.declared) : m'.Coherent where
  distinct := by
    rw [symbols, hm]
    exact h.distinct
  typed hf := h.typed (hm ▸ hf)

/-! ### Modules with a body more -/

section Body
variable {f : IRFunction} {code : List IRInstruction} {outputs : List IROperand}
  {strings : Array String} {uses : Bool}

theorem declared_withBody : (m.withBody f code outputs strings uses).declared =
    (m.markDefined f.symbol).declared := by
  unfold withBody finish markDefined
  cases m.declared.findIdx? fun x => decide (x.1.symbol = f.symbol) <;> rfl

theorem bodies_withBody : (m.withBody f code outputs strings uses).bodies =
    m.bodies.push (.ofCode f code outputs) := by
  simp only [withBody, finish, markDefined]
  split <;> rfl

theorem strings_withBody : (m.withBody f code outputs strings uses).strings = strings := by
  simp only [withBody, finish, markDefined]
  split <;> rfl

theorem Coherent.withBody (h : m.Coherent) : (m.withBody f code outputs strings uses).Coherent :=
  (h.markDefined f.symbol).of_declared declared_withBody

end Body

/-! ### Generating definitions -/

section Generate
variable {V : Vocabulary} {f : Definition} {g : IRFunction}

/-- A definition gets a function with its signature, and its body holds the code of its nodes. -/
theorem generate_eq_ok (hf : f.Sound V) (h : Session.generate f functions m = .ok g m') :
    ∃ m₁ table code operands strings uses, f.signature = .ok g.signature ∧ g.Typed ∧
      declare f.name f.name g.signature m = .ok g m₁ ∧
      Lowered functions strings f.graph.nodes.toList table code ∧ table.Reads f.outputs operands ∧
      m.strings.toList <+: strings.toList ∧ m' = m₁.withBody g code operands strings uses := by
  obtain ⟨s, m₀, hs, h⟩ := Action.bind_eq_ok.mp h
  obtain ⟨hsignature, rfl⟩ := Action.ofExcept_eq_ok.mp hs
  obtain ⟨g', m₁, hd, h⟩ := Action.bind_eq_ok.mp h
  obtain ⟨u, m₂, hc, h⟩ := Action.bind_eq_ok.mp h
  cases h
  obtain ⟨cache, hc⟩ := Action.discard_eq_ok.mp hc
  obtain ⟨htyped, rfl, -⟩ := declare_eq_ok f.name hd
  obtain ⟨table, code, operands, strings, uses, hlowered, hreads, hprefix, rfl⟩ :=
    compile_eq_ok hf (length_outputs htyped hsignature) hc
  exact ⟨m₁, table, code, operands, strings, uses, hsignature, htyped, hd, hlowered, hreads,
    strings_of_declare f.name hd ▸ hprefix, rfl⟩

theorem exists_generate (hf : f.Sound V) (hwords : Covers functions V) {s : Signature}
    (hs : f.signature = .ok s) {m₁ : IRModule} (hd : declare f.name f.name s m = .ok g m₁) :
    ∃ m', Session.generate f functions m = .ok g m' := by
  obtain ⟨htyped, rfl, -⟩ := declare_eq_ok f.name hd
  obtain ⟨cache, m', hcompile⟩ := exists_compile hf htyped hs hwords m₁
  exact ⟨m', Action.bind_eq_ok.mpr ⟨_, m, Action.ofExcept_eq_ok.mpr ⟨hs, rfl⟩,
    Action.bind_eq_ok.mpr ⟨g, m₁, hd,
      Action.bind_eq_ok.mpr ⟨(), m', Action.discard_eq_ok.mpr ⟨cache, hcompile⟩, rfl⟩⟩⟩⟩

/-- A definition that is turned down has a type without a counterpart in its signature. -/
theorem generate_eq_error {e : CompileError} (hf : f.Sound V) (hwords : Covers functions V)
    (h : Session.generate f functions m = .error e m') :
    m' = m ∧ ∃ type, e = .unsupported (.loweringType type) := by
  obtain ⟨s, hs⟩ := hf.exists_signature
  cases hd : declare f.name f.name s m with
  | ok g m₁ =>
    obtain ⟨m₂, hg⟩ := exists_generate hf hwords hs hd
    cases hg.symm.trans h
  | error e' m₁ =>
    have hfail : Session.generate f functions m = .error e' m₁ :=
      (Action.bind_of_ok (Action.ofExcept_eq_ok.mpr ⟨hs, rfl⟩) _).trans (Action.bind_of_error hd _)
    cases hfail.symm.trans h
    exact declare_eq_error _ hd

end Generate

/-! ### Functions of words -/

/-- The word at a place is answered by a function with its signature, which has been declared. -/
def Answers (m : IRModule) (functions : FunctionTable IRModule.target) (id : WordId) (w : Word)
    (f : IRFunction) : Prop :=
  functions[id]? = some (some f) ∧ w.signature = .ok f.signature ∧ ∃ b, (f, b) ∈ m.declared

structure Linked (d : Dictionary) (m : IRModule) (functions : FunctionTable IRModule.target) :
    Prop where
  sound : d.Sound
  size : functions.size = d.size
  coherent : m.Coherent
  answers : ∀ {id w}, d.word? id = some w → w.isUser = true → ∃ f, Answers m functions id w f

theorem Linked.covers (h : Linked d m functions)
    (hfunctions : ∀ id < d.size, functions'[id]? = functions[id]?) :
    Covers functions' d.vocabulary := by
  rintro c ⟨w, hw, hu, -, hs⟩
  obtain ⟨f, hf, hsignature, b, hmem⟩ := h.answers hw hu
  have hcount := (h.coherent.typed hmem).length_results
  rw [← Except.ok.inj (hs.symm.trans hsignature)] at hcount
  refine ⟨f, ?_, hcount⟩
  rw [hfunctions _ (Dictionary.lt_size_of_word? hw), hf]
  rfl

theorem Linked.getElem?_push (h : Linked d m functions) (x : Option IRFunction) :
    ∀ id < d.size, (functions.push x)[id]? = functions[id]? :=
  fun _ hid => getElem?_push_of_lt (h.size ▸ hid) x

theorem Linked.generate_eq_error (h : Linked d m functions) {name : String} {body : List Token}
    {draft : Draft} {e : CompileError} (hread : Session.readBody d body {} = .ok () draft)
    (hg : Session.generate (draft.toDefinition name body) (functions.push none) m = .error e m') :
    m' = m ∧ ∃ type, e = .unsupported (.loweringType type) :=
  IRModule.generate_eq_error (Session.sound_toDefinition h.sound hread)
    (h.covers (h.getElem?_push none)) hg

/-- The place of a completed definition might have held its function at first. -/
theorem Linked.complete_eq (h : Linked d m functions) (x : Option IRFunction) :
    (functions.push none).setIfInBounds d.size x = functions.push x := by
  rw [← h.size, setIfInBounds_push]

theorem Linked.enter (h : Linked d m functions) {w : Word} {x : Option IRFunction}
    (hcoherent : m'.Coherent)
    (hm : ∀ {f b}, (f, b) ∈ m.declared → ∃ b', (f, b') ∈ m'.declared)
    (hsound : (d.enter w).Sound)
    (hw : w.isUser = true → ∃ f, Answers m' (functions.push x) d.size w f) :
    Linked (d.enter w) m' (functions.push x) where
  sound := hsound
  size := by rw [Array.size_push, h.size, Dictionary.size_enter]
  coherent := hcoherent
  answers hv hu := by
    rcases Dictionary.word?_enter_eq_some.mp hv with ⟨rfl, rfl⟩ | hv
    · exact hw hu
    · obtain ⟨f, hf, hs, b, hmem⟩ := h.answers hv hu
      exact ⟨f, (h.getElem?_push x _ (Dictionary.lt_size_of_word? hv)).trans hf, hs, hm hmem⟩

theorem Linked.setInline (h : Linked d m functions) (id : WordId) (mark : Bool) :
    Linked (d.setInline id mark) m functions where
  sound := h.sound.setInline id mark
  size := by rw [h.size, Dictionary.setInline, Dictionary.size_modify]
  coherent := h.coherent
  answers hw hu := by
    obtain ⟨v, hv, heq, -⟩ := Dictionary.word?_setInline hw
    rw [heq] at hu ⊢
    exact h.answers (w := v) hv hu

theorem mem_withBody {f g : IRFunction} {b : Bool} {code : List IRInstruction}
    {outputs : List IROperand} {strings : Array String} {uses : Bool} (h : m.Coherent)
    (hf : (f, b) ∈ m.declared) :
    ∃ b', (f, b') ∈ (m.withBody g code outputs strings uses).declared := by
  rw [declared_withBody]
  by_cases hs : f.symbol = g.symbol
  · exact ⟨true, h.mem_markDefined.mpr (.inl ⟨hs, rfl, b, hf⟩)⟩
  · exact ⟨b, h.mem_markDefined.mpr (.inr ⟨hs, hf⟩)⟩

theorem lasting_linked : Session.Lasting (T := IRModule.target) Linked where
  markInline id h := h.setInline id true
  execute _ _ h := h
  takeOutput h := h
  declare {d m functions name symbol signature f m'} h _ hd := by
    obtain ⟨htyped, rfl, -⟩ := declare_eq_ok name hd
    obtain ⟨hnew, hold⟩ := mem_of_declare h.coherent name hd
    refine h.enter (h.coherent.declare name hd) (fun hmem => ⟨_, hold hmem⟩)
      (h.sound.enter_external ..) fun _ => ⟨f, ?_, rfl, hnew⟩
    rw [← h.size, Array.getElem?_push_size]
  declareFailed {d m functions name symbol signature e m'} h hd := by
    obtain ⟨rfl, -⟩ := declare_eq_error name hd
    exact h
  abandon name h := h.enter h.coherent (fun hmem => ⟨_, hmem⟩) (h.sound.enter_pending name)
    fun hu => nomatch hu
  define {d m functions name body draft g m'} h hread hg := by
    have hsound : (draft.toDefinition name body).Sound d.vocabulary :=
      Session.sound_toDefinition h.sound hread
    obtain ⟨m₁, table, code, operands, strings, uses, hs, htyped, hd, -, -, -, rfl⟩ :=
      generate_eq_ok hsound hg
    have hcoherent := h.coherent.declare _ hd
    obtain ⟨⟨b, hnew⟩, hold⟩ := mem_of_declare h.coherent _ hd
    rw [h.complete_eq]
    refine h.enter hcoherent.withBody (fun hmem => mem_withBody hcoherent (hold hmem))
      (h.sound.enter_compiled _ hsound) fun _ => ⟨g, ?_, hs, mem_withBody hcoherent hnew⟩
    rw [← h.size, Array.getElem?_push_size]
  defineFailed {d m functions name body draft e m'} h hread hg := by
    obtain ⟨rfl, -⟩ := h.generate_eq_error hread hg
    exact h.enter h.coherent (fun hmem => ⟨_, hmem⟩) (h.sound.enter_pending name)
      fun hu => nomatch hu

theorem linked_withBuiltins (name triple : String) : Linked .withBuiltins { name, triple }
    (Array.replicate Dictionary.withBuiltins.size none) where
  sound := Dictionary.sound_withBuiltins
  size := Array.size_replicate
  coherent := by
    constructor
    · exact List.nodup_nil
    · intro f b hf
      simp at hf
  answers hw hu := by
    obtain ⟨x, -, rfl⟩ := Dictionary.word?_withBuiltins hw
    cases hu

end IRModule

/-- What a fresh session that generates a module becomes by a text. -/
def Session.ofModuleText (text : String) : Session IRModule.target :=
  (Action.attempt (Session.run text)
    (ofTarget ({ name := defaultModuleName, triple := hostTriple } : IRModule))).2

theorem Session.reachable_ofModuleText (text : String) :
    Reachable ({ name := defaultModuleName, triple := hostTriple } : IRModule)
      (ofModuleText text) :=
  .run text (.start (rfl : ofConfig _ {} = _))

/-- Every word of a session that generates a module has a function that has been declared. -/
theorem Session.Reachable.linked_module {name triple : String} {s : Session IRModule.target}
    (h : Reachable ({ name, triple } : IRModule) s) :
    IRModule.Linked s.dictionary s.target s.functions :=
  h.holds IRModule.lasting_linked (IRModule.linked_withBuiltins name triple)

theorem compileText_eq_ok {text ir : String} {config : Config} :
    compileText text config = .ok ir ↔ ∃ start s, moduleSession config = .ok start ∧
      start.afterRun text = .ok s ∧ ir = s.target.text := by
  unfold compileText
  simp only [Except.bind_eq_ok]
  constructor
  · rintro ⟨start, hstart, s, hs, h⟩
    cases h
    exact ⟨start, s, hstart, hs, rfl⟩
  · rintro ⟨start, s, hstart, hs, rfl⟩
    exact ⟨start, hstart, s, hs, rfl⟩

end StackEffect
