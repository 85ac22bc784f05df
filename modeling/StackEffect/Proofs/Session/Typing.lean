import StackEffect.Proofs.Definition.WellTyped
import StackEffect.Proofs.Session.Reachable

/-!
Sound dictionaries: every definition is sound with regard to the words that the dictionary holds.
A body that is read with a sound dictionary gives a sound draft, so that reachable sessions have
sound dictionaries only, whatever their target.
-/
namespace StackEffect

namespace Dictionary

/-- A body may call the words that users have entered. -/
def vocabulary (d : Dictionary) : Vocabulary := fun c =>
  ∃ w, d.word? c.word = some w ∧ w.isUser = true ∧ w.name = c.name ∧ w.signature = .ok c.signature

structure Sound (d : Dictionary) : Prop where
  builtin : ∀ {id w p}, d.word? id = some w → w.kind = .builtin (.primitive p) → p.Regular
  compiled : ∀ {id w f}, d.word? id = some w → w.kind = .compiled f → f.Sound d.vocabulary

theorem vocabulary_enter {d : Dictionary} (w : Word) {kind : NodeKind}
    (h : d.vocabulary.Has kind) : (d.enter w).vocabulary.Has kind := by
  cases kind with
  | literal value => trivial
  | argument index type => trivial
  | primitive p => exact h
  | call callee =>
    obtain ⟨v, hv, hrest⟩ := h
    exact ⟨v, word?_enter_of_some w hv, hrest⟩

theorem vocabulary_setInline {d : Dictionary} (id : WordId) (mark : Bool) {kind : NodeKind}
    (h : d.vocabulary.Has kind) : (d.setInline id mark).vocabulary.Has kind := by
  cases kind with
  | literal value => trivial
  | argument index type => trivial
  | primitive p => exact h
  | call callee =>
    obtain ⟨v, hv, hrest⟩ := h
    have hm := word?_modify d id (fun w => { w with isInline := mark }) callee.word
    by_cases hid : id = callee.word
    · refine ⟨{ v with isInline := mark }, ?_, hrest⟩
      rw [setInline, hm, if_pos hid, hv, Option.map_some]
    · refine ⟨v, ?_, hrest⟩
      rw [setInline, hm, if_neg hid, hv]

theorem Sound.enter {d : Dictionary} {w : Word} (hd : d.Sound)
    (hb : ∀ p, w.kind = .builtin (.primitive p) → p.Regular)
    (hc : ∀ f, w.kind = .compiled f → f.Sound d.vocabulary) : (d.enter w).Sound where
  builtin hv hk := by
    rcases word?_enter_eq_some.mp hv with ⟨-, rfl⟩ | hv
    · exact hb _ hk
    · exact hd.builtin hv hk
  compiled hv hk := by
    rcases word?_enter_eq_some.mp hv with ⟨-, rfl⟩ | hv
    · exact (hc _ hk).mono fun _ => vocabulary_enter _
    · exact (hd.compiled hv hk).mono fun _ => vocabulary_enter _

theorem Sound.enter_external {d : Dictionary} (hd : d.Sound) (name symbol : String)
    (signature : Signature) : (d.enter (.external name symbol signature)).Sound :=
  hd.enter (fun _ hk => nomatch hk) fun _ hk => nomatch hk

theorem Sound.enter_pending {d : Dictionary} (hd : d.Sound) (name : String) :
    (d.enter (.pending name)).Sound :=
  hd.enter (fun _ hk => nomatch hk) fun _ hk => nomatch hk

theorem Sound.enter_compiled {d : Dictionary} (hd : d.Sound) (name : String) {f : Definition}
    (hf : f.Sound d.vocabulary) : (d.enter (.compiled name f)).Sound :=
  hd.enter (fun _ hk => nomatch hk) fun _ hk => by
    cases hk
    exact hf

theorem Sound.setInline {d : Dictionary} (hd : d.Sound) (id : WordId) (mark : Bool) :
    (d.setInline id mark).Sound := by
  constructor
  · intro i w p hw hk
    obtain ⟨v, hv, heq, -⟩ := word?_setInline hw
    rw [heq] at hk
    exact hd.builtin hv hk
  · intro i w f hw hk
    obtain ⟨v, hv, heq, -⟩ := word?_setInline hw
    rw [heq] at hk
    exact (hd.compiled hv hk).mono fun _ => vocabulary_setInline id mark

theorem regular_of_mem_builtinWords {x : String × Builtin} {p : Primitive}
    (h : x ∈ builtinWords) (hp : x.2 = .primitive p) : p.Regular := by
  have hall : ∀ x ∈ builtinWords, match x.2 with
      | .primitive (.binary _ type) => type = .int32 ∨ type = .float
      | _ => True := by
    simp [builtinWords, binaryWords]
  have hx := hall x h
  rw [hp] at hx
  cases p with
  | binary op type => exact hx
  | shuffle s => trivial
  | cast c => trivial

theorem sound_withBuiltins : withBuiltins.Sound where
  builtin hw hk := by
    obtain ⟨x, hx, rfl⟩ := word?_withBuiltins hw
    exact regular_of_mem_builtinWords hx (WordKind.builtin.inj hk)
  compiled hw hk := by
    obtain ⟨x, -, rfl⟩ := word?_withBuiltins hw
    cases hk

end Dictionary

/-! ### Reading with a sound dictionary -/

theorem Draft.Sound.toDefinition {V : Vocabulary} {d : Draft} (hd : d.Sound V) (name : String)
    (body : List Token) : (d.toDefinition name body).Sound V where
  graph := hd.graph
  argument hk := hd.argument (by simpa [Draft.toDefinition] using hk)
  numbered hn := by simpa [Draft.toDefinition] using hd.numbered hn
  outputs ho := hd.stack (by simpa [Draft.toDefinition, Draft.contents] using ho)

/-- A definition takes as many values as its draft has arguments. -/
theorem Draft.size_arguments {d : Draft} {name : String} {body : List Token} {effect : Signature}
    (hs : (d.toDefinition name body).signature = .ok effect) :
    d.arguments.size = effect.inputArity := by
  rw [Signature.inputArity, ← (Definition.signature_eq_ok.mp hs).1.length_eq]
  simp [toDefinition]

/-- What an operation uses belongs to the vocabulary. -/
def Operation.Sound (V : Vocabulary) : Operation → Prop
  | literal _ => True
  | primitive p => p.Regular
  | call callee => V callee
  | splice f => f.Sound V

theorem Operation.Sound.read {V : Vocabulary} {op : Operation} {position : Nat} {d e : Draft}
    {u : Unit} (hop : op.Sound V) (hd : d.Sound V) (h : op.read position d = .ok u e) :
    e.Sound V ∧ d.Grows e := by
  cases op with
  | literal value =>
    obtain ⟨n, h⟩ := Action.discard_eq_ok.mp h
    exact hd.literal h
  | primitive p =>
    obtain ⟨n, h⟩ := Action.discard_eq_ok.mp h
    exact hd.apply hop h
  | call callee =>
    obtain ⟨n, h⟩ := Action.discard_eq_ok.mp h
    exact hd.call hop h
  | splice f => exact Definition.Sound.inlineInto hop hd h

theorem Operation.sound_readAll {V : Vocabulary} {ops : List Operation} (hops : ∀ op ∈ ops, op.Sound V)
    {start : Nat} {d e : Draft} {u : Unit} (hd : d.Sound V) (h : readAll ops start d = .ok u e) :
    e.Sound V ∧ d.Grows e := by
  induction ops generalizing start d with
  | nil =>
    cases h
    exact ⟨hd, .refl _⟩
  | cons op ops ih =>
    obtain ⟨hop, hops⟩ := List.forall_mem_cons.mp hops
    obtain ⟨_, d₁, h₁, h⟩ := Action.bind_eq_ok.mp h
    obtain ⟨sound₁, grows₁⟩ := hop.read hd h₁
    obtain ⟨sound, grows⟩ := ih hops sound₁ h
    exact ⟨sound, grows₁.trans grows⟩

/-- The types of the values that an operation takes, the top one first. -/
def Operation.demands : Operation → List ValueType
  | literal _ => []
  | primitive p => List.replicate p.inputArity p.operandType
  | call callee => callee.signature.inputs
  | splice f => (f.signature.toOption.map Signature.inputs).getD []

theorem Operation.demands_splice {f : Definition} {s : Signature} (h : f.signature = .ok s) :
    (splice f).demands = s.inputs := by
  simp [demands, h, Except.toOption]

def Operation.word : Operation → String
  | literal value => value.label
  | primitive p => p.name
  | call callee => callee.name
  | splice f => f.name

/-- An operation goes into a draft if the values that it takes are found there. -/
theorem Operation.Sound.read_cases {V : Vocabulary} {op : Operation} (hop : op.Sound V) {d : Draft}
    (hd : d.Sound V) (position : Nat) :
    match Draft.popAll op.demands op.word position d with
    | .ok _ _ => ∃ e, op.read position d = .ok () e
    | .error fault _ => ∃ e, op.read position d = .error fault e := by
  cases op with
  | literal value => exact ⟨_, Action.discard_eq_ok.mpr ⟨_, Draft.literal_apply d value⟩⟩
  | primitive p =>
    simp only [demands, word, Operation.read]
    cases hp : Draft.popAll (List.replicate p.inputArity p.operandType) p.name position d with
    | ok os d₁ => exact ⟨_, Action.discard_eq_ok.mpr ⟨_, Draft.apply_eq_ok.mpr ⟨os, d₁, hp, rfl, rfl⟩⟩⟩
    | error fault d₁ => exact ⟨d₁, Action.discard_eq_error.mpr (Action.bind_of_error hp _)⟩
  | call callee =>
    simp only [demands, word, Operation.read]
    cases hp : Draft.popAll callee.signature.inputs callee.name position d with
    | ok os d₁ => exact ⟨_, Action.discard_eq_ok.mpr ⟨_, Draft.call_eq_ok.mpr ⟨os, d₁, hp, rfl, rfl⟩⟩⟩
    | error fault d₁ => exact ⟨d₁, Action.discard_eq_error.mpr (Action.bind_of_error hp _)⟩
  | splice f =>
    have hf : f.Sound V := hop
    obtain ⟨s, hs⟩ := hf.exists_signature
    rw [demands_splice hs]
    simp only [word, Operation.read]
    cases hp : Draft.popAll s.inputs f.name position d with
    | ok os d₁ => exact hf.exists_inlineInto hd hs hp
    | error fault d₁ =>
      refine ⟨d₁, ?_⟩
      rw [Definition.inlineInto, Action.bind_of_ok (Action.ofExcept_eq_ok.mpr ⟨hs, rfl⟩)]
      exact Action.bind_of_error hp _

theorem Operation.Sound.read_error {V : Vocabulary} {op : Operation} {position : Nat} {d e : Draft}
    {fault : CompileError} (hop : op.Sound V) (hd : d.Sound V)
    (h : op.read position d = .error fault e) :
    ∃ required ∈ op.demands, ∃ actual,
      fault = .typeMismatch op.word position required actual := by
  have hread := hop.read_cases hd position
  cases hp : Draft.popAll op.demands op.word position d with
  | ok os d₁ =>
    simp only [hp] at hread
    obtain ⟨e', he'⟩ := hread
    cases h.symm.trans he'
  | error fault' d₁ =>
    simp only [hp] at hread
    obtain ⟨e', he'⟩ := hread
    cases h.symm.trans he'
    exact hd.popAll_error hp

namespace Session
variable {T : Target} {dictionary : Dictionary} {d e : Draft} {u : Unit}

theorem sound_of_resolves {t : Token} {op : Operation} (hdict : dictionary.Sound)
    (h : Resolves dictionary t op) : op.Sound dictionary.vocabulary := by
  cases h with
  | literal hn hv => trivial
  | primitive hn hk => exact hdict.builtin (word?_of_named hn) hk
  | @call id w s hn hu hs => exact ⟨w, word?_of_named hn, hu, rfl, hs⟩
  | splice hn hk hinline => exact hdict.compiled (word?_of_named hn) hk

theorem sound_readToken {t : Token} {position : Nat} (hdict : dictionary.Sound)
    (hd : d.Sound dictionary.vocabulary) (h : readToken dictionary t position d = .ok u e) :
    e.Sound dictionary.vocabulary ∧ d.Grows e := by
  obtain ⟨op, hop, hread⟩ := readToken_eq_ok.mp h
  exact (sound_of_resolves hdict (resolves_of_ok hop)).read hd hread

theorem sound_operations {tokens : List Token} {ops : List Operation} (hdict : dictionary.Sound)
    (h : tokens.mapM (operation dictionary) = .ok ops) :
    ∀ op ∈ ops, op.Sound dictionary.vocabulary := by
  intro op hop
  obtain ⟨i, hi⟩ := List.mem_iff_getElem?.mp hop
  obtain ⟨t, -, ht⟩ := Pointwise.left_of_right (Except.mapM_eq_ok.mp h) hi
  exact sound_of_resolves hdict (resolves_of_ok ht)

theorem sound_readTokens {tokens : List (Token × Nat)} (hdict : dictionary.Sound)
    (hd : d.Sound dictionary.vocabulary) (h : readTokens dictionary tokens d = .ok u e) :
    e.Sound dictionary.vocabulary ∧ d.Grows e := by
  unfold readTokens at h
  induction tokens generalizing d with
  | nil =>
    cases h
    exact ⟨hd, .refl _⟩
  | cons t tokens ih =>
    obtain ⟨_, d₁, h₁, h₂⟩ := Action.bind_eq_ok.mp h
    obtain ⟨sound₁, grows₁⟩ := sound_readToken hdict hd h₁
    obtain ⟨sound₂, grows₂⟩ := ih sound₁ h₂
    exact ⟨sound₂, grows₁.trans grows₂⟩

theorem sound_toDefinition {name : String} {body : List Token} (hdict : dictionary.Sound)
    (h : readBody dictionary body {} = .ok u d) :
    (d.toDefinition name body).Sound dictionary.vocabulary :=
  (sound_readTokens hdict (.empty _) h).1.toDefinition name body

theorem lasting_sound :
    Lasting fun (d : Dictionary) (_ : T.State) (_ : FunctionTable T) => d.Sound where
  markInline id hd := hd.setInline id true
  execute _ _ hd := hd
  takeOutput hd := hd
  declare hd _ _ := hd.enter_external ..
  declareFailed hd _ := hd
  abandon name hd := hd.enter_pending name
  define hd hread _ := hd.enter_compiled _ (sound_toDefinition hd hread)
  defineFailed hd _ _ := hd.enter_pending _

theorem Reachable.sound {target : T.State} {s : Session T} (h : Reachable target s) :
    s.dictionary.Sound := h.holds lasting_sound Dictionary.sound_withBuiltins

/-- Every definition of a session is well-typed, whatever code is generated for it and also when
other bodies have been put into it. -/
theorem wellTyped_of_compiled {target : T.State} {s : Session T} (h : Reachable target s)
    {id : WordId} {w : Word} {f : Definition} (hw : s.dictionary.word? id = some w)
    (hk : w.kind = .compiled f) : f.WellTyped := (h.sound.compiled hw hk).wellTyped

def fourthPower : Definition where
  name := "quad"
  graph.nodes := #[
    ⟨.argument 0 .int32, []⟩,
    ⟨.primitive (.shuffle .dup), [⟨0, 0⟩]⟩,
    ⟨.primitive (.binary .mul .int32), [⟨1, 0⟩, ⟨1, 1⟩]⟩,
    ⟨.primitive (.shuffle .dup), [⟨2, 0⟩]⟩,
    ⟨.primitive (.binary .mul .int32), [⟨3, 0⟩, ⟨3, 1⟩]⟩]
  arguments := [0]
  outputs := [⟨4, 0⟩]
  source := ["sq", "sq"]

theorem wellTyped_fourthPower :
    (ofText ": sq dup * ; inline : quad sq sq ;").dictionary.word? 24 =
      some (.compiled "quad" fourthPower) ∧ fourthPower.WellTyped := by
  have hw : (ofText ": sq dup * ; inline : quad sq sq ;").dictionary.word? 24 =
      some (.compiled "quad" fourthPower) := by decide +kernel
  exact ⟨hw, wellTyped_of_compiled (reachable_ofText _) hw rfl⟩

end Session
end StackEffect
