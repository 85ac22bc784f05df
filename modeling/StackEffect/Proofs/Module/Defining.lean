import StackEffect.Proofs.Cursor
import StackEffect.Proofs.Module.Mangling
import StackEffect.Proofs.Module.Symbols

/-!
The functions that a module defines. In its functions section there is one `define` for each
definition, in the order of the definitions, and the symbols there are all different
(`defines_of_reachable`).
-/
namespace StackEffect

/-! ### Lines -/

/-- The symbol of the function whose definition the line starts. -/
def definedSymbol? (line : String) : Option String :=
  if "define ".toList.isPrefixOf line.toList then
    some (String.ofList (((line.toList.dropWhile (· ≠ '@')).drop 1).takeWhile (· ≠ '(')))
  else none

theorem not_mem_intercalate {α : Type} {c : α} {texts : List (List α)} (separator : List α)
    (hs : c ∉ separator) (h : ∀ text ∈ texts, c ∉ text) : c ∉ separator.intercalate texts := by
  induction texts with
  | nil => exact List.not_mem_nil
  | cons text texts ih =>
    have htext := h text List.mem_cons_self
    have hrest := ih fun text' htext' => h text' (List.mem_cons_of_mem text htext')
    cases texts with
    | nil => simpa [List.intercalate] using htext
    | cons text' texts =>
      have hcons : separator.intercalate (text :: text' :: texts) =
          text ++ separator ++ separator.intercalate (text' :: texts) := by
        simp [List.intercalate]
      rw [hcons]
      simp [hs, htext, hrest]

theorem not_mem_resultText {c : Char} (hvoid : c ∉ "void".toList)
    (htype : ∀ type : IRType, c ∉ type.text.toList) (hsigns : c ∉ ['{', ' ', ',', '}'])
    (results : List IRType) : c ∉ (resultText results).toList := by
  unfold resultText
  split
  · exact hvoid
  · exact htype _
  · have hfields : c ∉ (", ".intercalate (results.map IRType.text)).toList := by
      rw [String.toList_intercalate]
      refine not_mem_intercalate _ (fun hmem => hsigns ?_) fun text htext => ?_
      · simp at hmem ⊢
        tauto
      · obtain ⟨line, hline, rfl⟩ := List.mem_map.mp htext
        obtain ⟨type, -, rfl⟩ := List.mem_map.mp hline
        exact htype type
    simp only [List.mem_cons, List.not_mem_nil, or_false, not_or] at hsigns
    simpa [hsigns] using hfields

theorem at_not_mem_resultText (results : List IRType) : '@' ∉ (resultText results).toList :=
  not_mem_resultText (by decide) (fun type => by cases type <;> decide) (by decide) results

theorem symbol_of_head {keyword rest : List Char} {f : IRFunction} (hf : IsPlain f.symbol)
    (hkeyword : '@' ∉ keyword) :
    (((keyword ++ (resultText f.results).toList ++ [' '] ++
        '@' :: (f.symbol.toList ++ '(' :: rest)).dropWhile (· ≠ '@')).drop 1).takeWhile (· ≠ '(') =
      f.symbol.toList := by
  have hfront : '@' ∉ keyword ++ (resultText f.results).toList ++ [' '] := by
    simp [hkeyword, at_not_mem_resultText]
  have hsymbol : '(' ∉ f.symbol.toList := fun hmem => absurd (hf _ hmem) (by decide)
  rw [dropWhile_ne_append hfront, List.drop_one, List.tail_cons, takeWhile_ne_append hsymbol]

/-- A line that starts a definition tells the symbol of the function. -/
theorem definedSymbol?_eq_some {line : String} {f : IRFunction} {rest : List Char}
    (hf : IsPlain f.symbol) (h : line.toList = "define ".toList ++ (resultText f.results).toList ++
      [' '] ++ '@' :: (f.symbol.toList ++ '(' :: rest)) : definedSymbol? line = some f.symbol := by
  have hprefix : "define ".toList.isPrefixOf line.toList = true := by
    rw [List.isPrefixOf_iff_prefix, h, List.append_assoc, List.append_assoc]
    exact List.prefix_append ..
  rw [definedSymbol?, if_pos hprefix, h, symbol_of_head hf (by decide), String.ofList_toList]

theorem definedSymbols_headLines {f : IRFunction} (hf : IsPlain f.symbol) :
    f.headLines.filterMap definedSymbol? = [f.symbol] := by
  have hline (parameters : String) :
      (s!"define {resultText f.results} @{f.symbol}({parameters}) \x7b").toList =
        "define ".toList ++ (resultText f.results).toList ++ [' '] ++
          '@' :: (f.symbol.toList ++ '(' :: (parameters.toList ++ [')', ' ', '{'])) := by
    simp [toString]
  exact List.filterMap_cons_some (definedSymbol?_eq_some hf (hline _))

theorem definedSymbol?_instruction (i : IRInstruction) : definedSymbol? i.text = none := by
  unfold IRInstruction.text
  split <;> simp [definedSymbol?, toString, List.isPrefixOf]

theorem definedSymbol?_return (r : IRReturn) : definedSymbol? r.text = none := by
  cases r <;> simp [definedSymbol?, IRReturn.text, toString, List.isPrefixOf]

theorem definedSymbols_body {b : IRBody} {f : IRFunction} (hb : b.head = some f)
    (hf : IsPlain f.symbol) : b.lines.filterMap definedSymbol? = [f.symbol] := by
  have hcode : (b.code.toList.map IRInstruction.text).filterMap definedSymbol? = [] := by
    simp [definedSymbol?_instruction]
  have hlast : [b.last.text, "\x7d", ""].filterMap definedSymbol? = [] := by
    rw [List.filterMap_cons_none (definedSymbol?_return b.last)]
    rfl
  rw [IRBody.lines, hb, List.filterMap_append, List.filterMap_append, hcode, hlast,
    List.append_nil, List.append_nil, Option.map_some, Option.getD_some,
    definedSymbols_headLines hf]

theorem definedSymbols_bodies {bodies : List IRBody} {fs : List IRFunction}
    (h : List.Forall₂ (fun (b : IRBody) f => b.head = some f) bodies fs)
    (hfs : ∀ f ∈ fs, IsPlain f.symbol) :
    (bodies.flatMap IRBody.lines).filterMap definedSymbol? = fs.map IRFunction.symbol := by
  induction h with
  | nil => rfl
  | @cons b f bodies fs hb _ ih =>
    rw [List.flatMap_cons, List.filterMap_append, definedSymbols_body hb (hfs f List.mem_cons_self),
      ih fun f' hf' => hfs f' (List.mem_cons_of_mem f hf')]
    rfl

/-! ### The definitions of a dictionary -/

namespace Dictionary
variable {d : Dictionary}

/-- The places of the definitions, oldest first. -/
def definitions (d : Dictionary) : List WordId :=
  (d.places.filter fun (_, w) => w.definition?.isSome).map Prod.fst

theorem mem_definitions {id : WordId} :
    id ∈ d.definitions ↔ ∃ w f, d.word? id = some w ∧ w.kind = .compiled f := by
  have hdefinition : ∀ w : Word, w.definition?.isSome = true ↔ ∃ f, w.kind = .compiled f := by
    intro w
    unfold Word.definition?
    cases w.kind <;> simp
  simp only [definitions, List.mem_map, List.mem_filter, mem_places, hdefinition]
  constructor
  · rintro ⟨⟨i, w⟩, ⟨hw, f, hk⟩, rfl⟩
    exact ⟨w, f, hw, hk⟩
  · rintro ⟨w, f, hw, hk⟩
    exact ⟨(id, w), ⟨hw, f, hk⟩, rfl⟩

theorem definitions_enter (d : Dictionary) (w : Word) : (d.enter w).definitions =
    d.definitions ++ if w.definition?.isSome = true then [d.size] else [] := by
  rw [definitions, places_enter, List.filter_append, List.map_append, definitions]
  by_cases h : w.definition?.isSome = true <;> simp [h]

theorem definitions_markInline (d : Dictionary) (id : WordId) :
    (d.markInline id).definitions = d.definitions := by
  rw [definitions, markInline, places_modify, List.filter_map, List.map_map, definitions]
  refine congrArg (List.map Prod.fst) (List.filter_congr fun x _ => ?_)
  by_cases h : x.1 = id <;> simp [h, Word.definition?]

theorem definitions_withBuiltins : withBuiltins.definitions = [] := by
  refine List.eq_nil_iff_forall_not_mem.mpr fun id hid => ?_
  obtain ⟨w, f, hw, hk⟩ := mem_definitions.mp hid
  obtain ⟨x, -, rfl⟩ := word?_withBuiltins hw
  cases hk

end Dictionary

/-! ### Modules -/

namespace IRModule
variable {d : Dictionary} {m m' : IRModule} {functions : FunctionTable IRModule.target}
  {fs : List IRFunction} {g : IRFunction}

/-- The functions of the definitions, in their order. They are those that the module defines, and
their symbols are different. -/
structure Defines (d : Dictionary) (m : IRModule) (functions : FunctionTable IRModule.target)
    (fs : List IRFunction) : Prop where
  stand : List.Forall₂ (fun id f => functions[id]? = some (some f)) d.definitions fs
  heads : List.Forall₂ (fun (b : IRBody) f => b.head = some f) m.bodies.toList fs
  plain : ∀ {f b}, (f, b) ∈ m.declared → IsPlain f.symbol
  distinct : (fs.map IRFunction.symbol).Nodup
  marked : ∀ {f}, (f, true) ∈ m.declared ↔ f ∈ fs

theorem Defines.markInline (h : Defines d m functions fs) (id : WordId) :
    Defines (d.markInline id) m functions fs :=
  ⟨Dictionary.definitions_markInline d id ▸ h.stand, h.heads, h.plain, h.distinct, h.marked⟩

theorem Defines.stand_push (hl : Linked d m functions) (h : Defines d m functions fs)
    (x : Option IRFunction) :
    List.Forall₂ (fun id f => (functions.push x)[id]? = some (some f)) d.definitions fs := by
  refine (Pointwise.with_mem h.stand).imp fun id f hid => ?_
  obtain ⟨w, -, hw, -⟩ := Dictionary.mem_definitions.mp hid.1
  exact (hl.getElem?_push x id (Dictionary.lt_size_of_word? hw)).trans hid.2

theorem Defines.plain_of_declare (hl : Linked d m functions) (h : Defines d m functions fs)
    (name : String) {symbol : String} {signature : Signature}
    (hd : IRModule.declare name symbol signature m = .ok g m') {f : IRFunction} {b : Bool}
    (hmem : (f, b) ∈ m'.declared) : IsPlain f.symbol := by
  rcases hl.coherent.declare_eq_ok name hd with ⟨-, -, rfl⟩ | ⟨-, -, rfl⟩
  · exact h.plain hmem
  · rcases Array.mem_push.mp hmem with hmem | hnew
    · exact h.plain hmem
    · cases hnew
      exact isPlain_of_declare name hd

theorem Defines.enter (hl : Linked d m functions) (h : Defines d m functions fs) {w : Word}
    (hw : w.definition? = none) (x : Option IRFunction) (hbodies : m'.bodies = m.bodies)
    (hplain : ∀ {f b}, (f, b) ∈ m'.declared → IsPlain f.symbol)
    (hmarked : ∀ {f}, (f, true) ∈ m'.declared ↔ (f, true) ∈ m.declared) :
    Defines (d.enter w) m' (functions.push x) fs where
  stand := by
    rw [Dictionary.definitions_enter, hw, if_neg (by simp), List.append_nil]
    exact h.stand_push hl x
  heads := hbodies ▸ h.heads
  plain := hplain
  distinct := h.distinct
  marked := hmarked.trans h.marked

theorem Defines.define (hl : Linked d m functions) (h : Defines d m functions fs) {f : Definition}
    {m₁ : IRModule} {code : List IRInstruction} {outputs : List IROperand} {strings : Array String}
    {uses : Bool} (hd : IRModule.declare f.name f.name g.signature m = .ok g m₁) :
    Defines (d.enter (.compiled f.name f)) (m₁.withBody g code outputs strings uses)
      (functions.push (some g)) (fs ++ [g]) where
  stand := by
    rw [Dictionary.definitions_enter, Word.compiled, Word.definition?, if_pos Option.isSome_some]
    refine List.rel_append (h.stand_push hl (some g)) (.cons ?_ .nil)
    rw [← hl.size, Array.getElem?_push_size]
  heads := by
    rw [bodies_withBody, bodies_of_declare f.name hd, Array.toList_push]
    exact List.rel_append h.heads (.cons rfl .nil)
  plain {f' b} hmem := by
    rw [declared_withBody, (hl.coherent.declare f.name hd).mem_markDefined] at hmem
    rcases hmem with ⟨-, -, b', hmem⟩ | ⟨-, hmem⟩
    · exact h.plain_of_declare hl f.name hd hmem
    · exact h.plain_of_declare hl f.name hd hmem
  distinct := by
    rw [List.map_append]
    refine List.Nodup.append h.distinct (List.nodup_singleton _) fun symbol hold hnew => ?_
    obtain ⟨g', hg', rfl⟩ := List.mem_map.mp hold
    have hbody := h.marked.mpr hg'
    obtain ⟨hmem, -⟩ :=
      hl.coherent.repeated_of_symbol f.name hd hbody (List.mem_singleton.mp hnew)
    cases hl.coherent.eq_of_symbol hmem hbody (List.mem_singleton.mp hnew).symm
  marked := by
    intro h'
    rw [hl.coherent.defined_define hd, h.marked, List.mem_append, List.mem_singleton, or_comm]

theorem lasting_defines : Session.Lasting (T := IRModule.target) fun d m functions =>
    Linked d m functions ∧ ∃ fs, Defines d m functions fs where
  markInline id hi := by
    obtain ⟨hl, fs, h⟩ := hi
    exact ⟨lasting_linked.markInline id hl, fs, h.markInline id⟩
  execute _ _ hi := hi
  takeOutput hi := hi
  declare {d m functions name symbol signature g m'} hi hv hd := by
    obtain ⟨hl, fs, h⟩ := hi
    exact ⟨lasting_linked.declare hl hv hd, fs, h.enter hl rfl (some g) (bodies_of_declare name hd)
      (h.plain_of_declare hl name hd) (hl.coherent.defined_declare name hd)⟩
  declareFailed hi hd := by
    obtain ⟨rfl, -⟩ := declare_eq_error "" hd
    exact hi
  abandon name hi := by
    obtain ⟨hl, fs, h⟩ := hi
    exact ⟨lasting_linked.abandon name hl, fs, h.enter hl rfl none rfl h.plain Iff.rfl⟩
  define {d m functions name body draft g m'} hi hread hg := by
    obtain ⟨hl, fs, h⟩ := hi
    refine ⟨lasting_linked.define hl hread hg, fs ++ [g], ?_⟩
    obtain ⟨m₁, table, code, operands, strings, uses, hs, -, hd, -, -, -, rfl⟩ :=
      generate_eq_ok (Session.sound_toDefinition hl.sound hread) hg
    rw [hl.complete_eq]
    exact h.define hl hd
  defineFailed {d m functions name body draft e m'} hi hread hg := by
    obtain ⟨hl, fs, h⟩ := hi
    obtain ⟨rfl, -⟩ := hl.generate_eq_error hread hg
    exact ⟨lasting_linked.abandon name hl, fs, h.enter hl rfl none rfl h.plain Iff.rfl⟩

theorem defines_withBuiltins (name triple : String) : Defines .withBuiltins { name, triple }
    (Array.replicate Dictionary.withBuiltins.size none) [] where
  stand := by
    rw [Dictionary.definitions_withBuiltins]
    exact .nil
  heads := .nil
  plain := by simp
  distinct := List.nodup_nil
  marked := by simp

end IRModule

namespace Session

/-- The functions of a session's definitions. -/
theorem Reachable.defines {name triple : String} {s : Session IRModule.target}
    (h : Reachable ({ name, triple } : IRModule) s) :
    ∃ fs, IRModule.Defines s.dictionary s.target s.functions fs :=
  (h.holds IRModule.lasting_defines ⟨IRModule.linked_withBuiltins name triple,
    [], IRModule.defines_withBuiltins name triple⟩).2

/-- Each definition of a session has a symbol of its own. No two functions have been declared with
one symbol. The functions section has one `define` for each definition, in the order of the
definitions and with the symbol of its function; and a function is noted to have a body just when
there is a `define` of its symbol. In any module the search for a symbol ends with the first that is
free. -/
theorem defines_of_reachable {name triple : String} {s : Session IRModule.target}
    (h : Reachable ({ name, triple } : IRModule) s) :
    let defined := (s.target.bodies.toList.flatMap IRBody.lines).filterMap definedSymbol?
    s.target.symbols.Nodup ∧
    (∃ fs : List IRFunction,
      List.Forall₂ (fun id f => s.functions[id]? = some (some f)) s.dictionary.definitions fs ∧
      (fs.map IRFunction.symbol).Nodup ∧ defined = fs.map IRFunction.symbol) ∧
    (∀ f hasBody, (f, hasBody) ∈ s.target.declared → (hasBody = true ↔ f.symbol ∈ defined)) ∧
    ∀ (m : IRModule) base, unusedSymbol m.symbols base ∉ m.symbols ∧
      ∃ n, unusedSymbol m.symbols base = numbered base n ∧ ∀ i < n, numbered base i ∈ m.symbols := by
  have hcoherent := h.linked_module.coherent
  obtain ⟨fs, hdefines⟩ := h.defines
  have hdefined := definedSymbols_bodies hdefines.heads fun f hf =>
    hdefines.plain (hdefines.marked.mpr hf)
  refine ⟨hcoherent.distinct, ⟨fs, hdefines.stand, hdefines.distinct, hdefined⟩, ?_, fun m base => ?_⟩
  · intro f hasBody hmem
    rw [hdefined, List.mem_map]
    constructor
    · rintro rfl
      exact ⟨f, hdefines.marked.mp hmem, rfl⟩
    · rintro ⟨g, hg, hsymbol⟩
      cases hcoherent.eq_of_symbol (hdefines.marked.mpr hg) hmem hsymbol
      rfl
  · exact ⟨unusedSymbol_not_mem m.symbols base, unusedSymbol_eq_numbered m.symbols base⟩

/-- Names whose symbols run into each other, and a definition that takes over an external word. -/
def crowded : String :=
  ": f 1 ; : f.1 2 ; : f 3 ; : a-b 4 ; : a_b 5 ; extern neg ( i -- i ) : neg 0 swap - ;"

theorem defines_of_reachable_crowded :
    let s := ofModuleText crowded
    let defined := (s.target.bodies.toList.flatMap IRBody.lines).filterMap definedSymbol?
    defined = ["f", "f.1", "f.2", "a_b", "a_b.1", "neg"] ∧ s.dictionary.definitions.length = 6 ∧
      s.target.symbols = defined ∧ s.target.symbols.Nodup ∧
      (∃ fs : List IRFunction,
        List.Forall₂ (fun id f => s.functions[id]? = some (some f)) s.dictionary.definitions fs ∧
        (fs.map IRFunction.symbol).Nodup ∧ defined = fs.map IRFunction.symbol) ∧
      (∀ f hasBody, (f, hasBody) ∈ s.target.declared → hasBody = true) ∧
      unusedSymbol s.target.symbols "f" = "f.3" := by
  intro s defined
  obtain ⟨hdistinct, hfunctions, hmarked, -⟩ :=
    defines_of_reachable (reachable_ofModuleText crowded)
  have hruns : (defined, s.target.symbols, s.dictionary.definitions.length,
      unusedSymbol s.target.symbols "f") = (["f", "f.1", "f.2", "a_b", "a_b.1", "neg"],
        ["f", "f.1", "f.2", "a_b", "a_b.1", "neg"], 6, "f.3") := by decide +kernel
  simp only [Prod.mk.injEq] at hruns
  obtain ⟨hdefined, hsymbols, hlength, hunused⟩ := hruns
  refine ⟨hdefined, hlength, hsymbols.trans hdefined.symm, hdistinct, hfunctions,
    fun f hasBody hmem => (hmarked f hasBody hmem).mpr ?_, hunused⟩
  have hsymbol : f.symbol ∈ s.target.symbols := IRModule.mem_symbols hmem
  rwa [hsymbols, ← hdefined] at hsymbol

end Session
end StackEffect
