import StackEffect.Proofs.Module.Calling
import StackEffect.Proofs.Module.Globals
import StackEffect.Proofs.Session.Immediate
import StackEffect.Settings

/-!
External words of a configuration in a module. A configuration gives such a word a symbol that has
been checked (`checked_withSymbol`, `checked_ofText`), and in a module the word keeps its place and has
one function, which is declared there, or defined, and called under its symbol (`Configured`). This is
the symbol of the configuration unless a character of it is no ASCII one, or an earlier external word
has a function with the same symbol and another signature (`configured_symbol_iff`).
-/
namespace StackEffect

/-! ### Symbols that have been checked -/

theorem checkSymbol_eq_ok {symbol : String} (h : checkSymbol symbol = .ok ()) :
    ∀ c ∈ symbol.toList, isAlphanumeric c = true ∨ c = '_' ∨ c = '.' := by
  unfold checkSymbol at h
  split_ifs at h
  split at h
  · cases h
  · rename_i hnone
    intro c hc
    have hfound := List.find?_eq_none.mp hnone c hc
    simp only [Bool.and_eq_true, Bool.not_eq_true', decide_eq_true_eq, ne_eq] at hfound
    by_cases hletter : isAlphanumeric c = true
    · exact .inl hletter
    · by_cases hline : c = '_'
      · exact .inr (.inl hline)
      · refine .inr (.inr (by_contra fun hpoint => hfound ⟨⟨?_, hline⟩, hpoint⟩))
        exact Bool.eq_false_iff.mpr hletter

/-- The symbols that external words have of their own have been checked. -/
def Config.Checked (config : Config) : Prop :=
  ∀ w ∈ config.externals, ∀ symbol, w.symbol = some symbol → checkSymbol symbol = .ok ()

theorem ExternalWord.checked_withSymbol {w v : ExternalWord} {symbol : String}
    (h : w.withSymbol symbol = .ok v) : v.symbol = some symbol ∧ checkSymbol symbol = .ok () := by
  obtain ⟨u, hcheck, h⟩ := Except.bind_eq_ok.mp h
  cases h
  exact ⟨rfl, hcheck⟩

theorem Config.checked_ofText {text : String} {config : Config}
    (h : Config.ofText text = .ok config) : config.Checked := by
  obtain ⟨config', -, h⟩ := Except.bind_eq_ok.mp h
  obtain ⟨u, hall, h⟩ := Except.bind_eq_ok.mp h
  cases h
  intro w hw symbol hsymbol
  have hcheck := Session.forM_eq_ok.mp hall w hw
  unfold ExternalWord.check at hcheck
  split_ifs at hcheck
  · cases hcheck
  · obtain ⟨u', hchecked, -⟩ := Except.bind_eq_ok.mp hcheck
    rw [hsymbol] at hchecked
    exact hchecked

def IsAscii (text : String) : Prop := ∀ c ∈ text.toList, c.toNat < 128

instance (text : String) : Decidable (IsAscii text) :=
  List.decidableBAll (fun c : Char => c.toNat < 128) text.toList

theorem isAlphanum_iff_toNat {c : Char} : c.isAlphanum = true ↔ (0x30 ≤ c.toNat ∧ c.toNat ≤ 0x39) ∨
    (0x41 ≤ c.toNat ∧ c.toNat ≤ 0x5a) ∨ (0x61 ≤ c.toNat ∧ c.toNat ≤ 0x7a) := by
  unfold Char.isAlphanum Char.isAlpha Char.isUpper Char.isLower Char.isDigit
  simp only [Bool.or_eq_true, Bool.and_eq_true, decide_eq_true_eq, ge_iff_le,
    UInt32.le_iff_toNat_le]
  constructor
  · rintro ((h | h) | h)
    · exact .inr (.inl h)
    · exact .inr (.inr h)
    · exact .inl h
  · rintro (h | h | h)
    · exact .inr h
    · exact .inl (.inl h)
    · exact .inl (.inr h)

theorem lt_of_isSymbolChar {c : Char} (h : isSymbolChar c = true) : c.toNat < 128 := by
  simp only [isSymbolChar, Bool.or_eq_true, decide_eq_true_eq, isAlphanum_iff_toNat] at h
  rcases h with ((h | rfl) | rfl) | rfl
  · omega
  · decide
  · decide
  · decide

theorem isAlphanum_of_ascii {c : Char} (hc : c.toNat < 128) (h : isAlphanumeric c = true) :
    c.isAlphanum = true := by
  have habove : ∀ range ∈ alphanumericRanges.drop 3, 128 ≤ range.1 := by decide +kernel
  obtain ⟨range, hmem, hrange⟩ := List.any_eq_true.mp h
  rw [← List.take_append_drop 3 alphanumericRanges, List.mem_append] at hmem
  simp only [Bool.and_eq_true, decide_eq_true_eq] at hrange
  rcases hmem with hmem | hmem
  · rw [isAlphanum_iff_toNat]
    have hfirst : range ∈ [(0x30, 0x39), (0x41, 0x5a), (0x61, 0x7a)] := hmem
    simp only [List.mem_cons, List.not_mem_nil, or_false] at hfirst
    rcases hfirst with rfl | rfl | rfl
    · exact .inl hrange
    · exact .inr (.inl hrange)
    · exact .inr (.inr hrange)
  · have := habove range hmem
    omega

theorem isPlain_iff_of_checked {symbol : String} (h : checkSymbol symbol = .ok ()) :
    IsPlain symbol ↔ IsAscii symbol := by
  refine ⟨fun hplain c hc => lt_of_isSymbolChar (hplain c hc), fun hascii c hc => ?_⟩
  rcases checkSymbol_eq_ok h c hc with hletter | rfl | rfl
  · simp [isSymbolChar, isAlphanum_of_ascii (hascii c hc) hletter]
  · rfl
  · rfl

theorem mangled_eq_self_iff {name : String} : mangled name = name ↔ IsPlain name := by
  constructor
  · intro h
    exact h ▸ isPlain_mangled name
  · intro h
    have hchars : ∀ cs : List Char, (∀ c ∈ cs, isSymbolChar c = true) →
        cs.flatMap mangledChar = cs := by
      intro cs hcs
      induction cs with
      | nil => rfl
      | cons c cs ih =>
        rw [List.flatMap_cons, ih fun x hx => hcs x (List.mem_cons_of_mem c hx), mangledChar,
          if_pos (hcs c List.mem_cons_self), List.singleton_append]
    rw [mangled, hchars _ h, String.ofList_toList]

/-! ### The words of a configuration -/

/-- Words keep their places, and all but their marks as inline. -/
def Dictionary.KeptBy (d d' : Dictionary) : Prop :=
  ∀ id w, d.word? id = some w → ∃ isInline, d'.word? id = some { w with isInline }

theorem Dictionary.KeptBy.enter {d d' : Dictionary} (h : d.KeptBy d') (w : Word) :
    d.KeptBy (d'.enter w) :=
  fun id v hv => (h id v hv).imp fun _ hv' => word?_enter_of_some w hv'

namespace Session
variable {T : Target}

theorem lasting_keptBy (d : Dictionary) : Lasting (T := T) fun d' _ _ => d.KeptBy d' where
  markInline {d' _ _} i h id w hw := by
    obtain ⟨isInline, hw'⟩ := h id w hw
    have hmarked : ∃ mark, (d'.setInline i true).word? id =
        some { ({ w with isInline } : Word) with isInline := mark } :=
      Dictionary.word?_setInline_of_some true hw'
    exact hmarked
  execute _ _ h := h
  takeOutput h := h
  declare h _ _ := h.enter _
  declareFailed h _ := h
  abandon _ h := h.enter _
  define h _ _ := h.enter _
  defineFailed h _ _ := h.enter _

theorem keptBy_afterRun {s s' : Session T} {text : String} (h : s.afterRun text = .ok s') :
    s.dictionary.KeptBy s'.dictionary :=
  (outlasts_run (lasting_keptBy s.dictionary) text).ok (fun _ w hw => ⟨w.isInline, hw⟩)
    (afterRun_eq_ok.mp h)

theorem words_forM {externals : List ExternalWord} {s s' : Session T} {u : Unit}
    (h : (externals.forM fun w => do
      let signature ← Action.ofExcept w.signature
      discard (declareExternal w.name w.linkSymbol signature) : Action (Session T) Unit) s =
        .ok u s') :
    ∃ words, s'.dictionary.words.toList = s.dictionary.words.toList ++ words ∧
      List.Forall₂ (fun w v => ∃ signature, w.signature = .ok signature ∧
        v = .external w.name w.linkSymbol signature) externals words := by
  induction externals generalizing s with
  | nil =>
    cases h
    exact ⟨[], (List.append_nil _).symm, .nil⟩
  | cons w externals ih =>
    rw [Action.forM_cons] at h
    obtain ⟨_, s₁, h₁, h⟩ := Action.bind_eq_ok.mp h
    obtain ⟨signature, s₀, h₀, h₁⟩ := Action.bind_eq_ok.mp h₁
    obtain ⟨hsignature, rfl⟩ := Action.ofExcept_eq_ok.mp h₀
    obtain ⟨id, h₁⟩ := Action.discard_eq_ok.mp h₁
    rw [declareExternal_eq] at h₁
    cases ht : T.declare w.name w.linkSymbol signature s.target with
    | error e target =>
      rw [ht] at h₁
      cases h₁
    | ok function target =>
      rw [ht] at h₁
      cases h₁
      obtain ⟨words, hwords, hall⟩ := ih h
      refine ⟨_ :: words, ?_, .cons ⟨signature, hsignature, rfl⟩ hall⟩
      rw [hwords]
      simp [declared, Dictionary.enter]

theorem words_ofConfig {target : T.State} {config : Config} {s : Session T}
    (h : ofConfig target config = .ok s) :
    ∃ words, s.dictionary.words.toList = Dictionary.withBuiltins.words.toList ++ words ∧
      List.Forall₂ (fun w v => ∃ signature, w.signature = .ok signature ∧
        v = .external w.name w.linkSymbol signature) config.externals words := by
  simp only [ofConfig] at h
  split at h
  · rename_i hs
    cases h
    exact words_forM hs
  · cases h

end Session

namespace IRModule
variable {d : Dictionary} {m m' : IRModule} {functions : FunctionTable IRModule.target}

/-! ### Symbols that are taken -/

/-- What keeps a function off a symbol: an earlier word has a function with it, and this function has
another signature or belongs to an earlier definition. -/
def Taken (d : Dictionary) (functions : FunctionTable IRModule.target) (id : WordId)
    (symbol : String) (signature : Signature) : Prop :=
  ∃ id' kind g, id' < id ∧ Stands d functions id' kind g ∧ g.symbol = symbol ∧
    (g.signature = signature → ∃ i f, i < id ∧ Stands d functions i (.compiled f) g)

/-- External words have the symbols that they ask for, unless these are taken. -/
def Asked (d : Dictionary) (functions : FunctionTable IRModule.target) : Prop :=
  ∀ id signature symbol g, Stands d functions id (.external signature symbol) g →
    g.symbol = mangled symbol ∨ Taken d functions id (mangled symbol) g.signature

theorem Taken.enter (hl : Linked d m functions) {id : WordId} {symbol : String}
    {signature : Signature} (h : Taken d functions id symbol signature) (w : Word)
    (x : Option IRFunction) : Taken (d.enter w) (functions.push x) id symbol signature := by
  obtain ⟨id', kind, g, hlt, hs, hsymbol, hdefined⟩ := h
  refine ⟨id', kind, g, hlt, (stands_enter hl).mpr (.inl hs), hsymbol, fun hsignature => ?_⟩
  obtain ⟨i, f, hi, hf⟩ := hdefined hsignature
  exact ⟨i, f, hi, (stands_enter hl).mpr (.inl hf)⟩

theorem Asked.enter (hl : Linked d m functions) (h : Asked d functions) {w : Word}
    {x : Option IRFunction}
    (hnew : ∀ signature symbol g, w.kind = .external signature symbol → x = some g →
      g.symbol = mangled symbol ∨ Taken d functions d.size (mangled symbol) g.signature) :
    Asked (d.enter w) (functions.push x) := by
  intro id signature symbol g hs
  rcases (stands_enter hl).mp hs with hs | ⟨rfl, hkind, hx⟩
  · exact (h _ _ _ _ hs).imp_right fun ht => ht.enter hl w x
  · exact (hnew _ _ _ hkind hx).imp_right fun ht => ht.enter hl w x

theorem Asked.markInline (h : Asked d functions) (i : WordId) : Asked (d.markInline i) functions := by
  intro id signature symbol g hs
  refine (h _ _ _ _ (stands_markInline.mp hs)).imp_right ?_
  rintro ⟨id', kind, g', hlt, hs', hsymbol, hdefined⟩
  refine ⟨id', kind, g', hlt, stands_markInline.mpr hs', hsymbol, fun hsignature => ?_⟩
  obtain ⟨i, f, hi, hf⟩ := hdefined hsignature
  exact ⟨i, f, hi, stands_markInline.mpr hf⟩

theorem mem_symbols_of_declare (name : String) {symbol : String} {signature : Signature}
    {g : IRFunction} (hd : IRModule.declare name symbol signature m = .ok g m')
    (hne : g.symbol ≠ mangled symbol) : mangled symbol ∈ m.symbols := by
  rw [declare_eq] at hd
  split at hd
  · cases hd
  · cases hd
  · split_ifs at hd
    · cases hd
      exact absurd rfl hne
    · cases hd
      obtain ⟨n, hn, htaken⟩ := unusedSymbol_eq_numbered m.symbols (mangled symbol)
      cases n with
      | zero => exact absurd hn hne
      | succ n => exact htaken 0 (Nat.succ_pos n)

theorem taken_of_declare (hl : Linked d m functions) (ho : Owned d m functions)
    (hp : Placed d m functions) (name : String) {symbol : String} {signature : Signature}
    {g : IRFunction} (hd : IRModule.declare name symbol signature m = .ok g m') :
    g.symbol = mangled symbol ∨ Taken d functions d.size (mangled symbol) g.signature := by
  by_cases hsymbol : g.symbol = mangled symbol
  · exact .inl hsymbol
  obtain ⟨⟨h, b⟩, hmem, hbase⟩ := List.mem_map.mp (mem_symbols_of_declare name hd hsymbol)
  have hdeclared : (h, b) ∈ m.declared := Array.mem_toList_iff.mp hmem
  obtain ⟨id, w, hw, hfunction⟩ := ho.owner hdeclared
  have hs : Stands d functions id w.kind h := ⟨w, hw, rfl, hfunction⟩
  refine .inr ⟨id, w.kind, h, hs.lt_size, hs, hbase, fun hsignature => ?_⟩
  -- A function of the same signature would have been declared again, but for its body.
  have hbody : b = true := by
    by_contra hb
    obtain rfl : b = false := Bool.eq_false_iff.mpr hb
    have hg : g.signature = signature := (declare_eq_ok name hd).2.1
    have heq := hl.coherent.eq_of_declare name hd hdeclared hbase (hsignature.trans hg)
    exact hsymbol (heq ▸ hbase)
  subst hbody
  obtain ⟨body, hbody, hhead⟩ := hp.marked hdeclared
  obtain ⟨i, f, h', hs', hhead'⟩ := hp.body hbody
  obtain rfl : h = h' := Option.some.inj (hhead.symm.trans hhead')
  exact ⟨i, f, hs'.lt_size, hs'⟩

theorem lasting_asked : Session.Lasting (T := IRModule.target) fun d m functions =>
    Linked d m functions ∧ Owned d m functions ∧ Placed d m functions ∧ Asked d functions where
  markInline id h := ⟨lasting_linked.markInline id h.1, h.2.1.markInline id, h.2.2.1.markInline id,
    h.2.2.2.markInline id⟩
  execute _ _ h := h
  takeOutput h := h
  declare {d m functions name symbol signature g m'} h hv hd := by
    obtain ⟨hl, ho, hp, ha⟩ := h
    refine ⟨lasting_linked.declare hl hv hd, (lasting_owned.declare ⟨hl, ho⟩ hv hd).2,
      (lasting_placed.declare ⟨hl, hp⟩ hv hd).2, ha.enter hl ?_⟩
    rintro signature symbol g ⟨⟩ ⟨⟩
    exact taken_of_declare hl ho hp name hd
  declareFailed h hd := by
    obtain ⟨rfl, -⟩ := declare_eq_error "" hd
    exact h
  abandon name h := by
    obtain ⟨hl, ho, hp, ha⟩ := h
    exact ⟨lasting_linked.abandon name hl, (lasting_owned.abandon name ⟨hl, ho⟩).2,
      (lasting_placed.abandon name ⟨hl, hp⟩).2, ha.enter hl fun _ _ _ hk => nomatch hk⟩
  define {d m functions name body draft g m'} h hread hg := by
    obtain ⟨hl, ho, hp, ha⟩ := h
    refine ⟨lasting_linked.define hl hread hg, (lasting_owned.define ⟨hl, ho⟩ hread hg).2,
      (lasting_placed.define ⟨hl, hp⟩ hread hg).2, ?_⟩
    rw [hl.complete_eq]
    exact ha.enter hl fun _ _ _ hk => nomatch hk
  defineFailed {d m functions name body draft e m'} h hread hg := by
    obtain ⟨hl, ho, hp, ha⟩ := h
    exact ⟨lasting_linked.defineFailed hl hread hg, (lasting_owned.defineFailed ⟨hl, ho⟩ hread hg).2,
      (lasting_placed.defineFailed ⟨hl, hp⟩ hread hg).2, ha.enter hl fun _ _ _ hk => nomatch hk⟩

end IRModule

namespace Session

theorem Reachable.asked {name triple : String} {s : Session IRModule.target}
    (h : Reachable ({ name, triple } : IRModule) s) :
    IRModule.Asked s.dictionary s.functions := by
  refine (h.holds IRModule.lasting_asked ⟨IRModule.linked_withBuiltins name triple,
    IRModule.owned_withBuiltins name triple, IRModule.placed_withBuiltins name triple, ?_⟩).2.2.2
  rintro id signature symbol g ⟨w, hw, hk, -⟩
  obtain ⟨x, -, rfl⟩ := Dictionary.word?_withBuiltins hw
  cases hk

/-- The external word that comes `k`-th in a configuration has its place behind the built-in words. -/
def placeOf (k : Nat) : WordId := Dictionary.withBuiltins.size + k

/-- The function that an external word of a configuration has got. -/
structure Configured (s : Session IRModule.target) (k : Nat) (w : ExternalWord) (f : IRFunction) :
    Prop where
  signature : w.signature = .ok f.signature
  word : ∃ isInline, s.dictionary.word? (placeOf k) =
    some { Word.external w.name w.linkSymbol f.signature with isInline }
  function : s.functions[placeOf k]? = some (some f)

/-- The function of a word is declared or defined, and each call of the word names its symbol. -/
structure Emits (s : Session IRModule.target) (id : WordId) (f : IRFunction) : Prop where
  introduced : f.declareLine ∈ s.target.declareLines ∨ ∃ b ∈ s.target.bodies, b.head = some f
  called : ∀ b ∈ s.target.bodies, ∃ id' d g,
    IRModule.Stands s.dictionary s.functions id' (.compiled d) g ∧ b.head = some g ∧
      List.Forall₂ (fun word symbol => word = id → symbol = f.symbol) d.callees b.callees

theorem Reachable.eq_of_configured {name triple : String} {s : Session IRModule.target}
    (h : Reachable ({ name, triple } : IRModule) s) {j k : Nat} {v w : ExternalWord}
    {f g : IRFunction} (hg : s.Configured j v g) (hf : s.Configured k w f)
    (hsymbol : g.symbol = f.symbol) : g = f := by
  obtain ⟨mark, hgword⟩ := hg.word
  obtain ⟨isInline, hfword⟩ := hf.word
  obtain ⟨f', hf', -, b, hfmem⟩ := h.linked_module.answers hfword rfl
  obtain ⟨g', hg', -, b', hgmem⟩ := h.linked_module.answers hgword rfl
  cases hf.function.symm.trans hf'
  cases hg.function.symm.trans hg'
  exact congrArg Prod.fst (h.linked_module.coherent.eq_of_symbol hgmem hfmem hsymbol)

/-- Each word with a function is emitted with its symbol. -/
theorem Reachable.emits {name triple : String} {s : Session IRModule.target}
    (h : Reachable ({ name, triple } : IRModule) s) {id : WordId} {w : Word} {f : IRFunction}
    (hw : s.dictionary.word? id = some w) (hu : w.isUser = true)
    (hf : s.functions[id]? = some (some f)) : s.Emits id f := by
  obtain ⟨f', hf', -, b, hmem⟩ := h.linked_module.answers hw hu
  cases hf.symm.trans hf'
  constructor
  · cases b with
    | true => exact .inr (h.placed.marked hmem)
    | false =>
      have hline : f.declareLine ∈ s.target.declarations := List.mem_append_left _
        (List.mem_map_of_mem (IRModule.mem_external.mpr hmem))
      rw [IRModule.declareLines_eq, if_neg]
      · exact .inl (List.mem_cons_of_mem _ hline)
      · intro hempty
        rw [List.isEmpty_iff.mp hempty] at hline
        cases hline
  · intro body hbody
    obtain ⟨id', d, g, hs, hhead, hcalls⟩ := h.calls body hbody
    refine ⟨id', d, g, hs, hhead, hcalls.imp ?_⟩
    rintro word symbol ⟨g', hg', hsymbol⟩ rfl
    have heq : g' = f := Option.some.inj (Option.some.inj (hg'.symm.trans hf))
    exact heq ▸ hsymbol.symm

/-- In the lines of a body, each call of the word names the symbol of its function, among the other
calls of the definition; there are no more calls but those of the helper. -/
theorem Emits.called_lines {name triple : String} {s : Session IRModule.target}
    (h : Reachable ({ name, triple } : IRModule) s) {id : WordId} {f : IRFunction}
    (he : s.Emits id f) {b : IRBody} (hb : b ∈ s.target.bodies) :
    ∃ id' d g symbols,
      IRModule.Stands s.dictionary s.functions id' (.compiled d) g ∧ b.head = some g ∧
      List.Forall₂ (fun word symbol => word = id → symbol = f.symbol) d.callees symbols ∧
      symbols.Sublist (b.lines.filterMap calledSymbol?) ∧
      ∀ symbol ∈ b.lines.filterMap calledSymbol?,
        symbol ∈ symbols ∨ symbol = intToStringSymbol := by
  obtain ⟨id', d, g, hs, hhead, hcalls⟩ := he.called b hb
  obtain ⟨hsublist, honly⟩ := b.callees_written
  rw [h.calledSymbols_lines hb]
  exact ⟨id', d, g, b.callees, hs, hhead, hcalls, hsublist, honly⟩

theorem reachable_of_compile {config : Config} {start s : Session IRModule.target} {text : String}
    (hstart : moduleSession config = .ok start) (hs : start.afterRun text = .ok s) :
    Reachable
      ({ name := config.moduleName, triple := config.targetTriple.getD hostTriple } : IRModule) s :=
  Reachable.afterRun (.start hstart) hs

section Config
variable {config : Config} {start s : Session IRModule.target} {text : String}
  (hstart : moduleSession config = .ok start) (hs : start.afterRun text = .ok s)
include hstart hs

/-- The words of a configuration have functions, whatever text comes behind. -/
theorem exists_configured {k : Nat} {w : ExternalWord} (hw : config.externals[k]? = some w) :
    ∃ f, s.Configured k w f := by
  obtain ⟨words, hwords, hall⟩ := words_ofConfig hstart
  obtain ⟨v, hv, signature, hsignature, rfl⟩ := Pointwise.right_of_left hall hw
  have hword : start.dictionary.word? (placeOf k) =
      some (.external w.name w.linkSymbol signature) := by
    rw [Dictionary.word?, ← Array.getElem?_toList, hwords, placeOf, Dictionary.size,
      ← Array.length_toList, List.getElem?_append_right (Nat.le_add_right ..), Nat.add_sub_cancel_left,
      hv]
  obtain ⟨isInline, hkept⟩ := keptBy_afterRun hs _ _ hword
  obtain ⟨f, hf, hsig, -⟩ := (reachable_of_compile hstart hs).linked_module.answers hkept rfl
  cases hsig
  exact ⟨f, hsignature, ⟨isInline, hkept⟩, hf⟩

theorem before_configured {k : Nat} {w : ExternalWord} (hw : config.externals[k]? = some w)
    {id : WordId} (hid : id < placeOf k) :
    (∃ b v, s.dictionary.word? id = some v ∧ v.kind = .builtin b) ∨
      ∃ j v, j < k ∧ id = placeOf j ∧ config.externals[j]? = some v := by
  by_cases hbuiltin : id < Dictionary.withBuiltins.size
  · obtain ⟨words, hwords, -⟩ := words_ofConfig hstart
    have hword : start.dictionary.word? id = Dictionary.withBuiltins.word? id := by
      rw [Dictionary.word?, ← Array.getElem?_toList, hwords, Dictionary.word?,
        ← Array.getElem?_toList]
      exact List.getElem?_append_left hbuiltin
    have hsome : Dictionary.withBuiltins.word? id = some Dictionary.withBuiltins.words[id] :=
      Array.getElem?_eq_getElem hbuiltin
    obtain ⟨x, -, hx⟩ := Dictionary.word?_withBuiltins hsome
    rw [hx] at hsome
    obtain ⟨isInline, hkept⟩ := keptBy_afterRun hs _ _ (hword.trans hsome)
    exact .inl ⟨x.2, _, hkept, rfl⟩
  · obtain ⟨j, rfl⟩ := Nat.exists_eq_add_of_le (Nat.le_of_not_lt hbuiltin)
    have hj : j < k := Nat.lt_of_add_lt_add_left hid
    obtain ⟨hk, -⟩ := List.getElem?_eq_some_iff.mp hw
    exact .inr ⟨j, _, hj, rfl, List.getElem?_eq_getElem (Nat.lt_trans hj hk)⟩

theorem configured_of_stands {k : Nat} {w : ExternalWord} (hw : config.externals[k]? = some w)
    {id : WordId} (hid : id < placeOf k) {kind : WordKind} {g : IRFunction}
    (hg : IRModule.Stands s.dictionary s.functions id kind g) :
    ∃ j v, j < k ∧ s.Configured j v g ∧ kind = .external g.signature v.linkSymbol := by
  obtain ⟨u, hu, rfl, hfunction⟩ := hg
  rcases before_configured hstart hs hw hid with ⟨b, v, hv, hkind⟩ | ⟨j, v, hj, rfl, hv⟩
  · obtain ⟨name, -, hname, -⟩ := (reachable_of_compile hstart hs).owned.named hv hfunction
    simp [Word.linkName?, hkind] at hname
  · obtain ⟨g', hg'⟩ := exists_configured hstart hs hv
    obtain rfl : g' = g := Option.some.inj (Option.some.inj (hg'.function.symm.trans hfunction))
    obtain ⟨isInline, hword⟩ := hg'.word
    cases hu.symm.trans hword
    exact ⟨j, v, hj, hg', rfl⟩

end Config

/-- In the module that a text compiles to, a word of the configuration whose symbol has been checked
has a function, and this is emitted with exactly this symbol just when the symbol is an ASCII one and
no earlier word of the configuration has a function with this symbol and another signature. -/
theorem configured_symbol_iff {text ir : String} {config : Config} (hconfig : config.Checked)
    (h : compileText text config = .ok ir) : ∃ start s, moduleSession config = .ok start ∧
      start.afterRun text = .ok s ∧ ir = s.target.text ∧
      ∀ {k w symbol}, config.externals[k]? = some w → w.symbol = some symbol →
        ∃ f, s.Configured k w f ∧ s.Emits (placeOf k) f ∧
          (f.symbol = symbol ↔ IsAscii symbol ∧ ∀ j v g, j < k → s.Configured j v g →
            g.symbol = symbol → g.signature = f.signature) := by
  obtain ⟨start, s, hstart, hs, hir⟩ := compileText_eq_ok.mp h
  refine ⟨start, s, hstart, hs, hir, fun {k w symbol} hw hsymbol => ?_⟩
  have hreach := reachable_of_compile hstart hs
  have hchecked := hconfig w (List.mem_of_getElem? hw) symbol hsymbol
  have hlink : w.linkSymbol = symbol := by rw [ExternalWord.linkSymbol, hsymbol, Option.getD_some]
  obtain ⟨f, hf⟩ := exists_configured hstart hs hw
  obtain ⟨isInline, hword⟩ := hf.word
  refine ⟨f, hf, hreach.emits hword rfl hf.function, fun hfsymbol => ⟨?_, ?_⟩, ?_⟩
  · obtain ⟨name, n, -, hn⟩ := hreach.owned.named hword hf.function
    refine (isPlain_iff_of_checked hchecked).mp ?_
    rw [← hfsymbol, hn]
    exact isPlain_numbered (isPlain_mangled name) n
  · intro j v g _ hg hgsymbol
    exact congrArg IRFunction.signature
      (hreach.eq_of_configured hg hf (hgsymbol.trans hfsymbol.symm))
  · rintro ⟨hascii, hearlier⟩
    have hmangled : mangled symbol = symbol :=
      mangled_eq_self_iff.mpr ((isPlain_iff_of_checked hchecked).mpr hascii)
    have hstands : IRModule.Stands s.dictionary s.functions (placeOf k)
        (.external f.signature symbol) f := ⟨_, hword, by rw [← hlink]; rfl, hf.function⟩
    rcases hreach.asked _ _ _ _ hstands with hfsymbol | ⟨id, kind, g, hid, hg, hgsymbol, hdefined⟩
    · exact hfsymbol.trans hmangled
    · obtain ⟨j, v, hj, hgv, -⟩ := configured_of_stands hstart hs hw hid hg
      obtain ⟨i, d, hi, hd⟩ := hdefined (hearlier j v g hj hgv (hgsymbol.trans hmangled))
      obtain ⟨j', v', -, -, hkind⟩ := configured_of_stands hstart hs hw hi hd
      cases hkind

def drawing : Config where
  externals := [⟨"emit", some "putchar", "i", "i"⟩, ⟨"draw-line", some "gfx.line_to", "i i", ""⟩]

def corner : String := ": corner 0 9 draw-line 9 9 draw-line 10 emit ;"

theorem configured_symbol_iff_drawing : drawing.Checked ∧ ∃ ir, compileText corner drawing = .ok ir ∧
    ∃ start s, moduleSession drawing = .ok start ∧ start.afterRun corner = .ok s ∧
      ir = s.target.text ∧
      ∃ f, s.Configured 0 ⟨"emit", some "putchar", "i", "i"⟩ f ∧ s.Emits (placeOf 0) f ∧
        f.symbol = "putchar" := by
  have hchecked : drawing.Checked := by
    intro w hw symbol hsymbol
    simp only [drawing, List.mem_cons, List.not_mem_nil, or_false] at hw
    rcases hw with rfl | rfl <;> cases hsymbol <;> decide +kernel
  have hcompiles : (compileText corner drawing).isOk = true := by decide +kernel
  obtain ⟨ir, hir⟩ := Except.exists_of_isOk hcompiles
  obtain ⟨start, s, hstart, hs, htext, hall⟩ := configured_symbol_iff hchecked hir
  obtain ⟨f, hf, hemits, hiff⟩ := @hall 0 ⟨"emit", some "putchar", "i", "i"⟩ "putchar" rfl rfl
  have hascii : IsAscii "putchar" := by decide
  exact ⟨hchecked, ir, hir, start, s, hstart, hs, htext, f, hf, hemits,
    hiff.mpr ⟨hascii, fun j _ _ hj => absurd hj (Nat.not_lt_zero j)⟩⟩

def accented : Config where
  externals := [⟨"f", some "é", "i", "i"⟩]

def overloaded : Config where
  externals := [⟨"put", some "x", "i", ""⟩, ⟨"put-float", some "x", "f", ""⟩]

def moduleHead : String :=
  "; ModuleID = 'llforth'\nsource_filename = \"llforth\"\n" ++
    "target triple = \"x86_64-unknown-linux-gnu\"\n\n"

/-- Symbols that have been checked and are not emitted as they are: one is spelled out, and one gets a
number. -/
theorem configured_symbol_changed :
    (checkSymbol "é" = .ok () ∧ compileText "" accented = .ok (moduleHead ++
      "; External declarations\ndeclare i32 @_xE9_(i32)\n")) ∧
    (checkSymbol "x" = .ok () ∧ compileText "" overloaded = .ok (moduleHead ++
      "; External declarations\ndeclare void @x(i32)\ndeclare void @x.1(float)\n")) := by
  decide +kernel

end Session
end StackEffect
