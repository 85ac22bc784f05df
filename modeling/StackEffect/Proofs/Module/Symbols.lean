import StackEffect.Proofs.Module.Linking

/-!
Which functions have bodies. The function of an external word has none, unless a later definition has
taken it over: one whose name is spelled like the function's symbol and whose signature is the same
(`external_defined_iff`). Then calls of the external word reach the definition, those in the
definition itself among them.
-/
namespace StackEffect

namespace IRModule
variable {d : Dictionary} {m m' : IRModule} {functions : FunctionTable IRModule.target}
  {id : WordId} {kind : WordKind} {g h : IRFunction}

/-- The word at a place is of the kind and has the function. -/
def Stands (d : Dictionary) (functions : FunctionTable IRModule.target) (id : WordId)
    (kind : WordKind) (g : IRFunction) : Prop :=
  ∃ w, d.word? id = some w ∧ w.kind = kind ∧ functions[id]? = some (some g)

theorem Stands.lt_size (hs : Stands d functions id kind g) : id < d.size := by
  obtain ⟨w, hw, -⟩ := hs
  exact Dictionary.lt_size_of_word? hw

theorem Linked.declared_of_stands (hl : Linked d m functions) (hs : Stands d functions id kind g)
    (hu : ∀ w : Word, w.kind = kind → w.isUser = true) : ∃ b, (g, b) ∈ m.declared := by
  obtain ⟨w, hw, hk, hg⟩ := hs
  obtain ⟨f, hf, -, hmem⟩ := hl.answers hw (hu w hk)
  cases hg.symm.trans hf
  exact hmem

theorem stands_enter (hl : Linked d m functions) {w : Word} {x : Option IRFunction} :
    Stands (d.enter w) (functions.push x) id kind g ↔
      Stands d functions id kind g ∨ id = d.size ∧ w.kind = kind ∧ x = some g := by
  constructor
  · rintro ⟨v, hv, hk, hg⟩
    rcases Dictionary.word?_enter_eq_some.mp hv with ⟨rfl, rfl⟩ | hv
    · rw [← hl.size, Array.getElem?_push_size] at hg
      exact .inr ⟨rfl, hk, Option.some.inj hg⟩
    · rw [hl.getElem?_push x _ (Dictionary.lt_size_of_word? hv)] at hg
      exact .inl ⟨v, hv, hk, hg⟩
  · rintro (⟨v, hv, hk, hg⟩ | ⟨rfl, hk, rfl⟩)
    · exact ⟨v, Dictionary.word?_enter_of_some w hv, hk,
        (hl.getElem?_push x _ (Dictionary.lt_size_of_word? hv)).trans hg⟩
    · exact ⟨w, Dictionary.word?_enter_eq_some.mpr (.inl ⟨rfl, rfl⟩), hk,
        by rw [← hl.size, Array.getElem?_push_size]⟩

theorem Stands.of_enter (hl : Linked d m functions) {w : Word} {x : Option IRFunction}
    (hs : Stands (d.enter w) (functions.push x) id kind g) (hne : w.kind ≠ kind) :
    Stands d functions id kind g :=
  ((stands_enter hl).mp hs).resolve_right fun hnew => hne hnew.2.1

theorem stands_markInline {i : WordId} :
    Stands (d.markInline i) functions id kind g ↔ Stands d functions id kind g := by
  constructor
  · rintro ⟨w, hw, hk, hg⟩
    have hw' : (d.setInline i true).word? id = some w := hw
    obtain ⟨v, hv, heq, -⟩ := Dictionary.word?_setInline hw'
    rw [heq] at hk
    exact ⟨v, hv, hk, hg⟩
  · rintro ⟨w, hw, hk, hg⟩
    obtain ⟨isInline, hv⟩ := Dictionary.word?_setInline_of_some true hw
    exact ⟨{ w with isInline }, hv, hk, hg⟩

/-- Bodies belong to definitions, and a function that a definition shares with an external word is
that of an earlier word with the symbol that the definition asks for. -/
structure Placed (d : Dictionary) (m : IRModule) (functions : FunctionTable IRModule.target) :
    Prop where
  body : ∀ {b}, b ∈ m.bodies →
    ∃ id f g, Stands d functions id (.compiled f) g ∧ b.head = some g
  defined : ∀ {id f g}, Stands d functions id (.compiled f) g → (g, true) ∈ m.declared
  marked : ∀ {g}, (g, true) ∈ m.declared → ∃ b ∈ m.bodies, b.head = some g
  shared : ∀ {id s symbol g id' f h}, Stands d functions id (.external s symbol) g →
    Stands d functions id' (.compiled f) h → g.symbol = h.symbol →
    id < id' ∧ mangled f.name = g.symbol
  taken : ∀ {id s symbol g id' f h}, Stands d functions id (.external s symbol) g →
    Stands d functions id' (.compiled f) h → id < id' → mangled f.name = g.symbol →
    f.signature = .ok g.signature → (g, true) ∈ m.declared

theorem Placed.abandon (hl : Linked d m functions) (hp : Placed d m functions) (w : Word) :
    Placed (d.enter w) m (functions.push none) := by
  have hold : ∀ {id kind g}, Stands (d.enter w) (functions.push none) id kind g →
      Stands d functions id kind g := by
    intro id kind g hs
    rcases (stands_enter hl).mp hs with hs | ⟨-, -, hx⟩
    · exact hs
    · cases hx
  constructor
  · intro b hb
    obtain ⟨id, f, g, hs, hhead⟩ := hp.body hb
    exact ⟨id, f, g, (stands_enter hl).mpr (.inl hs), hhead⟩
  · exact fun hs => hp.defined (hold hs)
  · exact hp.marked
  · exact fun hs hs' => hp.shared (hold hs) (hold hs')
  · exact fun hs hs' => hp.taken (hold hs) (hold hs')

theorem Placed.markInline (hp : Placed d m functions) (i : WordId) :
    Placed (d.markInline i) m functions where
  body hb := by
    obtain ⟨id, f, g, hs, hhead⟩ := hp.body hb
    exact ⟨id, f, g, stands_markInline.mpr hs, hhead⟩
  defined hs := hp.defined (stands_markInline.mp hs)
  marked := hp.marked
  shared hs hs' := hp.shared (stands_markInline.mp hs) (stands_markInline.mp hs')
  taken hs hs' := hp.taken (stands_markInline.mp hs) (stands_markInline.mp hs')

theorem Placed.declare (hl : Linked d m functions) (hp : Placed d m functions)
    {name symbol : String} {s : Signature} (hd : declare name symbol s m = .ok g m') :
    Placed (d.enter (.external name symbol s)) m' (functions.push (some g)) := by
  have hdefined : ∀ {h}, (h, true) ∈ m'.declared ↔ (h, true) ∈ m.declared :=
    hl.coherent.defined_declare name hd
  have hcompiled : ∀ {id f h}, Stands (d.enter (.external name symbol s)) (functions.push (some g))
      id (.compiled f) h → Stands d functions id (.compiled f) h :=
    fun hs => hs.of_enter hl nofun
  have hbodies : m'.bodies = m.bodies := bodies_of_declare name hd
  constructor
  · intro b hb
    obtain ⟨id, f, g', hs, hhead⟩ := hp.body (hbodies ▸ hb)
    exact ⟨id, f, g', (stands_enter hl).mpr (.inl hs), hhead⟩
  · exact fun hs => hdefined.mpr (hp.defined (hcompiled hs))
  · exact fun hmem => hbodies ▸ hp.marked (hdefined.mp hmem)
  · intro id s' symbol' g' id' f h hs hs' heq
    rcases (stands_enter hl).mp hs with hs | ⟨-, -, hx⟩
    · exact hp.shared hs (hcompiled hs') heq
    · -- A function that has a body is not declared again.
      cases hx
      have hbody := hp.defined (hcompiled hs')
      obtain ⟨hmem, -⟩ := hl.coherent.repeated_of_symbol name hd hbody heq.symm
      cases hl.coherent.eq_of_symbol hmem hbody heq
  · intro id s' symbol' g' id' f h hs hs' hlt hname hsignature
    rcases (stands_enter hl).mp hs with hs | ⟨rfl, -, -⟩
    · exact hdefined.mpr (hp.taken hs (hcompiled hs') hlt hname hsignature)
    · exact absurd (hcompiled hs').lt_size (Nat.lt_asymm hlt)

section Define
variable {f : Definition} {m₁ : IRModule} {code : List IRInstruction} {outputs : List IROperand}
  {strings : Array String} {uses : Bool}

theorem Coherent.defined_define (hm : m.Coherent)
    (hd : IRModule.declare f.name f.name g.signature m = .ok g m₁) :
    (h, true) ∈ (m₁.withBody g code outputs strings uses).declared ↔
      h = g ∨ (h, true) ∈ m.declared := by
  obtain ⟨⟨b, hnew⟩, -⟩ := mem_of_declare hm f.name hd
  have hm₁ := hm.declare f.name hd
  rw [declared_withBody, hm₁.mem_markDefined, hm.defined_declare f.name hd]
  constructor
  · rintro (⟨hs, -, b', hmem⟩ | ⟨-, hmem⟩)
    · exact .inl (congrArg Prod.fst (hm₁.eq_of_symbol hmem hnew hs))
    · exact .inr hmem
  · rintro (rfl | hmem)
    · exact .inl ⟨rfl, rfl, b, hnew⟩
    · by_cases hs : h.symbol = g.symbol
      · exact .inl ⟨hs, rfl, true, (hm.defined_declare f.name hd).mpr hmem⟩
      · exact .inr ⟨hs, hmem⟩

/-- A definition gets a function with a body, which may be that of an external word. -/
theorem Placed.define (hl : Linked d m functions) (hp : Placed d m functions)
    (hf : f.signature = .ok g.signature)
    (hd : IRModule.declare f.name f.name g.signature m = .ok g m₁) :
    Placed (d.enter (.compiled f.name f)) (m₁.withBody g code outputs strings uses)
      (functions.push (some g)) := by
  have hdefined : ∀ {h}, (h, true) ∈ (m₁.withBody g code outputs strings uses).declared ↔
      h = g ∨ (h, true) ∈ m.declared := hl.coherent.defined_define hd
  have hbodies : (m₁.withBody g code outputs strings uses).bodies =
      m.bodies.push (.ofCode g code outputs) := by
    rw [bodies_withBody, bodies_of_declare f.name hd]
  have hexternal : ∀ {id s symbol h}, Stands (d.enter (.compiled f.name f))
      (functions.push (some g)) id (.external s symbol) h →
      Stands d functions id (.external s symbol) h ∧ ∃ b, (h, b) ∈ m.declared := by
    intro id s symbol h hs
    have hold := hs.of_enter hl nofun
    exact ⟨hold, hl.declared_of_stands hold fun w hk => Word.isUser_iff.mpr (.inl ⟨_, _, hk⟩)⟩
  constructor
  · intro b hb
    rw [hbodies] at hb
    rcases Array.mem_push.mp hb with hb | rfl
    · obtain ⟨id, f', g', hs, hhead⟩ := hp.body hb
      exact ⟨id, f', g', (stands_enter hl).mpr (.inl hs), hhead⟩
    · exact ⟨d.size, f, g, (stands_enter hl).mpr (.inr ⟨rfl, rfl, rfl⟩), rfl⟩
  · intro id f' h hs
    rcases (stands_enter hl).mp hs with hs | ⟨-, -, hx⟩
    · exact hdefined.mpr (.inr (hp.defined hs))
    · exact hdefined.mpr (.inl (Option.some.inj hx).symm)
  · intro h hmem
    rw [hbodies]
    rcases hdefined.mp hmem with rfl | hmem
    · exact ⟨_, Array.mem_push_self, rfl⟩
    · obtain ⟨b, hb, hhead⟩ := hp.marked hmem
      exact ⟨b, Array.mem_push_of_mem _ hb, hhead⟩
  · intro id s symbol h id' f' h' hs hs' heq
    obtain ⟨hold, b, hmem⟩ := hexternal hs
    rcases (stands_enter hl).mp hs' with hs' | ⟨rfl, hk, hx⟩
    · exact hp.shared hold hs' heq
    · cases hx
      cases hk
      obtain ⟨-, hname⟩ := hl.coherent.repeated_of_symbol f.name hd hmem heq
      exact ⟨hold.lt_size, (heq.trans hname).symm⟩
  · intro id s symbol h id' f' h' hs hs' hlt hname hsignature
    obtain ⟨hold, b, hmem⟩ := hexternal hs
    rcases (stands_enter hl).mp hs' with hs' | ⟨rfl, hk, hx⟩
    · exact hdefined.mpr (.inr (hp.taken hold hs' hlt hname hsignature))
    · -- Without a body of its own yet, the function is what the definition gets.
      cases hk
      cases b with
      | true => exact hdefined.mpr (.inr hmem)
      | false =>
        have hsame : h.signature = g.signature := Except.ok.inj (hsignature.symm.trans hf)
        exact hdefined.mpr (.inl (hl.coherent.eq_of_declare f.name hd hmem hname.symm hsame))

end Define

theorem lasting_placed : Session.Lasting (T := IRModule.target) fun d m functions =>
    Linked d m functions ∧ Placed d m functions where
  markInline id hi := ⟨lasting_linked.markInline id hi.1, hi.2.markInline id⟩
  execute _ _ hi := hi
  takeOutput hi := hi
  declare hi hv hd := ⟨lasting_linked.declare hi.1 hv hd, hi.2.declare hi.1 hd⟩
  declareFailed hi hd := by
    obtain ⟨rfl, -⟩ := declare_eq_error "" hd
    exact hi
  abandon name hi := ⟨lasting_linked.abandon name hi.1, hi.2.abandon hi.1 _⟩
  define {d m functions name body draft g m'} hi hread hg := by
    refine ⟨lasting_linked.define hi.1 hread hg, ?_⟩
    obtain ⟨m₁, table, code, operands, strings, uses, hs, -, hd, -, -, -, rfl⟩ :=
      generate_eq_ok (Session.sound_toDefinition hi.1.sound hread) hg
    rw [hi.1.complete_eq]
    exact hi.2.define hi.1 hs hd
  defineFailed {d m functions name body draft e m'} hi hread hg := by
    obtain ⟨rfl, -⟩ := hi.1.generate_eq_error hread hg
    exact ⟨lasting_linked.abandon name hi.1, hi.2.abandon hi.1 _⟩

theorem placed_withBuiltins (name triple : String) : Placed .withBuiltins { name, triple }
    (Array.replicate Dictionary.withBuiltins.size none) := by
  have hnone : ∀ {id kind g}, ¬ Stands .withBuiltins
      (Array.replicate Dictionary.withBuiltins.size none) id kind g := by
    rintro id kind g ⟨w, -, -, hg⟩
    rw [Array.getElem?_replicate] at hg
    split_ifs at hg
    cases hg
  constructor
  · intro b hb
    simp at hb
  · exact fun hs => (hnone hs).elim
  · intro g hg
    simp at hg
  · exact fun hs => (hnone hs).elim
  · exact fun hs => (hnone hs).elim

end IRModule

namespace Session

theorem Reachable.placed {name triple : String} {s : Session IRModule.target}
    (h : Reachable ({ name, triple } : IRModule) s) :
    IRModule.Placed s.dictionary s.target s.functions :=
  (h.holds IRModule.lasting_placed ⟨IRModule.linked_withBuiltins name triple,
    IRModule.placed_withBuiltins name triple⟩).2

/-- The function of an external word has a body just when a later definition has taken it over: one
whose name is spelled like the symbol of the function and whose signature is the same. -/
theorem external_defined_iff {name triple : String} {s : Session IRModule.target}
    (h : Reachable ({ name, triple } : IRModule) s) {id : WordId} {w : Word}
    {signature : Signature} {symbol : String} (hw : s.dictionary.word? id = some w)
    (hk : w.kind = .external signature symbol) {f : IRFunction}
    (hf : s.functions[id]? = some (some f)) :
    (∃ b ∈ s.target.bodies, ∃ g, b.head = some g ∧ g.symbol = f.symbol) ↔
      ∃ id' w' d, id < id' ∧ s.dictionary.word? id' = some w' ∧ w'.kind = .compiled d ∧
        mangled d.name = f.symbol ∧ d.signature = .ok f.signature := by
  have hl := h.linked_module
  have hp := h.placed
  have hext : IRModule.Stands s.dictionary s.functions id (.external signature symbol) f :=
    ⟨w, hw, hk, hf⟩
  constructor
  · rintro ⟨b, hb, g, hhead, hsymbol⟩
    obtain ⟨id', d, g', hs, hhead'⟩ := hp.body hb
    obtain rfl : g = g' := Option.some.inj (hhead.symm.trans hhead')
    obtain ⟨hlt, hname⟩ := hp.shared hext hs hsymbol.symm
    obtain ⟨b', hmem⟩ := hl.declared_of_stands hext fun w hk => Word.isUser_iff.mpr (.inl ⟨_, _, hk⟩)
    obtain rfl : g = f :=
      congrArg Prod.fst (hl.coherent.eq_of_symbol (hp.defined hs) hmem hsymbol)
    obtain ⟨w', hw', hk', hg'⟩ := hs
    obtain ⟨f', hf', hsignature, -⟩ := hl.answers hw' (Word.isUser_iff.mpr (.inr ⟨d, hk'⟩))
    cases hg'.symm.trans hf'
    exact ⟨id', w', d, hlt, hw', hk', hname, (Word.signature_of_compiled hk').symm.trans hsignature⟩
  · rintro ⟨id', w', d, hlt, hw', hk', hname, hsignature⟩
    obtain ⟨f', hf', -⟩ := hl.answers hw' (Word.isUser_iff.mpr (.inr ⟨d, hk'⟩))
    obtain ⟨b, hb, hhead⟩ :=
      hp.marked (hp.taken hext ⟨w', hw', hk', hf'⟩ hlt hname hsignature)
    exact ⟨b, hb, f, hhead, rfl⟩

def shadowing : String := "extern foo ( i -- i ) : foo foo 1 + ;"

def fooFunction : IRFunction := ⟨"foo", ⟨[.int32], [.int32]⟩, [.i32], [.i32]⟩

def fooBody : IRBody where
  head := some fooFunction
  code := #[.call (some 0) [.i32] "foo" [(.i32, .parameter 0)],
    .integerOp 1 .add (.temporary 0) (.int 1)]
  last := .value .i32 (.temporary 1)

theorem external_defined_iff_shadowing :
    (ofModuleText shadowing).dictionary.word? 23 =
        some (.external "foo" "foo" ⟨[.int32], [.int32]⟩) ∧
      (ofModuleText shadowing).functions[23]? = some (some fooFunction) ∧
      ∃ id' w' d, 23 < id' ∧ (ofModuleText shadowing).dictionary.word? id' = some w' ∧
        w'.kind = .compiled d ∧ mangled d.name = "foo" ∧ d.signature = .ok ⟨[.int32], [.int32]⟩ := by
  have hw : (ofModuleText shadowing).dictionary.word? 23 =
      some (.external "foo" "foo" ⟨[.int32], [.int32]⟩) := by decide +kernel
  have hf : (ofModuleText shadowing).functions[23]? = some (some fooFunction) := by decide +kernel
  have hb : fooBody ∈ (ofModuleText shadowing).target.bodies := by decide +kernel
  exact ⟨hw, hf, (external_defined_iff (reachable_ofModuleText shadowing) hw rfl hf).mp
    ⟨fooBody, hb, fooFunction, rfl, rfl⟩⟩

/-- An external word whose function has a body: the definition that shadows the word has its symbol,
and the call of the word in the definition calls the definition. -/
theorem external_defined_shadowing :
    (ofModuleText shadowing).dictionary.word? 23 =
        some (.external "foo" "foo" ⟨[.int32], [.int32]⟩) ∧
      (ofModuleText shadowing).functions[23]? = some (some fooFunction) ∧
      (ofModuleText shadowing).functions[24]? = some (some fooFunction) ∧
      (ofModuleText shadowing).target.bodies = #[fooBody] := by
  decide +kernel

end Session
end StackEffect
