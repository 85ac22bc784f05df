import StackEffect.Proofs.Module.Defining

/-!
The global names of a module: those of its strings, of the functions that it defines and declares,
and of the function that turns an integer into a string. Symbols are chosen apart from one another but
not from the other names, so that each name is introduced once just when no function has a name that
is reserved (`introduced_once_iff`). A function with such a name belongs to a word that is named so.
-/
namespace StackEffect

/-! ### Reserved names -/

def stringName (n : Nat) : String := s!".str.{n}"

theorem toList_stringName (n : Nat) :
    (stringName n).toList = ".str".toList ++ '.' :: Nat.toDigits 10 n := by
  simp [stringName, toString, Nat.repr_eq_ofList_toDigits]

theorem point_not_mem_toDigits (n : Nat) : '.' ∉ Nat.toDigits 10 n := fun h =>
  absurd (Nat.isDigit_of_mem_toDigits (by decide) (by decide) h) (by decide)

theorem stringName_injective {m n : Nat} (h : stringName m = stringName n) : m = n := by
  have hlist := congrArg String.toList h
  rw [toList_stringName, toList_stringName] at hlist
  have htail := (List.cons.inj (List.append_cancel_left hlist)).2
  have hdigits := congrArg (Nat.ofDigitChars 10 · 0) htail
  simpa only [Nat.ofDigitChars_ten_toDigits] using hdigits

theorem eq_of_append_point {front front' digits digits' : List Char}
    (h : front ++ '.' :: digits = front' ++ '.' :: digits') (hdigits : '.' ∉ digits)
    (hdigits' : '.' ∉ digits') : front = front' := by
  rcases List.append_eq_append_iff.mp h with ⟨between, rfl, hrest⟩ | ⟨between, rfl, hrest⟩
  · cases between with
    | nil => exact (List.append_nil front).symm
    | cons c between =>
      refine absurd ?_ hdigits
      rw [(List.cons.inj hrest).2]
      simp
  · cases between with
    | nil => exact List.append_nil front'
    | cons c between =>
      refine absurd ?_ hdigits'
      rw [(List.cons.inj hrest).2]
      simp

/-- A symbol is the name of a string only if it is made from such a name or from what those names
start with. -/
theorem base_of_stringName {base : String} {n k : Nat} (h : numbered base n = stringName k) :
    base = stringName k ∨ base = ".str" := by
  cases n with
  | zero => exact .inl h
  | succ n =>
    have hlist := congrArg String.toList h
    rw [toList_numbered_succ, toList_stringName] at hlist
    have hbase := eq_of_append_point hlist (point_not_mem_toDigits _) (point_not_mem_toDigits _)
    exact .inr (String.toList_injective hbase)

theorem base_of_intToString {base : String} {n : Nat} (h : numbered base n = intToStringSymbol) :
    base = intToStringSymbol := by
  cases n with
  | zero => exact h
  | succ n =>
    have hpoint : '.' ∈ intToStringSymbol.toList := by
      rw [← h, toList_numbered_succ]
      simp
    exact absurd hpoint (by decide)

namespace IRModule
variable {d : Dictionary} {m : IRModule} {functions : FunctionTable IRModule.target}
  {fs : List IRFunction} {f : IRFunction}

def stringNames (m : IRModule) : List String := (List.range m.strings.size).map stringName

def helperNames (m : IRModule) : List String :=
  if m.usesIntToString then [intToStringSymbol] else []

/-- The names that are no function's own. -/
def reserved (m : IRModule) : List String := m.stringNames ++ m.helperNames

def external (m : IRModule) : List IRFunction :=
  m.declared.toList.filterMap fun (f, hasBody) => if hasBody then none else some f

theorem mem_external : f ∈ m.external ↔ (f, false) ∈ m.declared := by
  simp [external]

theorem nodup_reserved (m : IRModule) : m.reserved.Nodup := by
  refine List.Nodup.append ?_ ?_ ?_
  · exact List.nodup_range.map fun _ _ => stringName_injective
  · unfold helperNames
    split_ifs <;> simp
  · intro name hstring hhelper
    obtain ⟨n, -, rfl⟩ := List.mem_map.mp hstring
    have hname : stringName n = intToStringSymbol := by
      unfold helperNames at hhelper
      split_ifs at hhelper
      · exact List.mem_singleton.mp hhelper
      · cases hhelper
    have hlist := congrArg String.toList hname
    rw [toList_stringName] at hlist
    cases hlist

/-- The symbols of the functions that have bodies and of those that have none are all different. -/
theorem nodup_symbols (hm : m.Coherent) (h : Defines d m functions fs) :
    (fs.map IRFunction.symbol ++ m.external.map IRFunction.symbol).Nodup := by
  have hexternal : (m.external.map IRFunction.symbol).Sublist m.symbols := by
    have hmap : m.external.map IRFunction.symbol =
        (m.declared.toList.filter fun x => !x.2).map fun x => x.1.symbol := by
      rw [external, List.map_filterMap, ← List.filterMap_eq_filter, List.map_filterMap]
      refine List.filterMap_congr ?_
      rintro ⟨f, hasBody⟩ -
      cases hasBody <;> rfl
    rw [hmap]
    exact List.filter_sublist.map _
  refine List.Nodup.append h.distinct (hm.distinct.sublist hexternal) fun symbol hbody hnone => ?_
  obtain ⟨f, hf, rfl⟩ := List.mem_map.mp hbody
  obtain ⟨g, hg, hsymbol⟩ := List.mem_map.mp hnone
  cases hm.eq_of_symbol (mem_external.mp hg) (h.marked.mpr hf) hsymbol

theorem mem_symbols_iff (h : Defines d m functions fs) {symbol : String} :
    symbol ∈ fs.map IRFunction.symbol ++ m.external.map IRFunction.symbol ↔
      ∃ f b, (f, b) ∈ m.declared ∧ f.symbol = symbol := by
  simp only [List.mem_append, List.mem_map, mem_external]
  constructor
  · rintro (⟨f, hf, rfl⟩ | ⟨f, hf, rfl⟩)
    · exact ⟨f, true, h.marked.mpr hf, rfl⟩
    · exact ⟨f, false, hf, rfl⟩
  · rintro ⟨f, b, hf, rfl⟩
    cases b with
    | true => exact .inl ⟨f, h.marked.mp hf, rfl⟩
    | false => exact .inr ⟨f, hf, rfl⟩

end IRModule

/-! ### Lines -/

/-- The global name that the line introduces: a constant, a definition or a declaration. -/
def introducedName? (line : String) : Option String :=
  if "@".toList.isPrefixOf line.toList then
    some (String.ofList ((line.toList.drop 1).takeWhile (· ≠ ' ')))
  else if "declare ".toList.isPrefixOf line.toList then
    some (String.ofList (((line.toList.dropWhile (· ≠ '@')).drop 1).takeWhile (· ≠ '(')))
  else definedSymbol? line

theorem blank_not_mem_stringName (n : Nat) : ' ' ∉ (stringName n).toList := by
  rw [toList_stringName]
  intro h
  rcases List.mem_append.mp h with hfront | hpoint
  · exact absurd hfront (by decide)
  · rcases List.mem_cons.mp hpoint with hpoint | hdigit
    · cases hpoint
    · exact absurd (Nat.isDigit_of_mem_toDigits (by decide) (by decide) hdigit) (by decide)

theorem introducedName?_stringLine (n : Nat) (s : String) :
    introducedName? (stringLine n s) = some (stringName n) := by
  obtain ⟨rest, hline⟩ :
      ∃ rest, (stringLine n s).toList = '@' :: ((stringName n).toList ++ ' ' :: rest) := by
    simp [stringLine, stringText, stringName, toString]
  rw [introducedName?, if_pos (by rw [hline]; rfl), hline, List.drop_succ_cons, List.drop_zero,
    takeWhile_ne_append (blank_not_mem_stringName n), String.ofList_toList]

theorem introducedName?_declareLine {f : IRFunction} (hf : IsPlain f.symbol) :
    introducedName? f.declareLine = some f.symbol := by
  obtain ⟨rest, h⟩ : ∃ rest, f.declareLine.toList = "declare ".toList ++
      (resultText f.results).toList ++ [' '] ++ '@' :: (f.symbol.toList ++ '(' :: rest) :=
    ⟨(commaSeparated (f.parameters.map IRType.text)).toList ++ [')'],
      by simp [IRFunction.declareLine, toString]⟩
  have hstring : "@".toList.isPrefixOf f.declareLine.toList = false := by
    rw [h]
    rfl
  have hprefix : "declare ".toList.isPrefixOf f.declareLine.toList = true := by
    rw [List.isPrefixOf_iff_prefix, h, List.append_assoc, List.append_assoc]
    exact List.prefix_append ..
  rw [introducedName?, hstring, if_neg Bool.false_ne_true, if_pos hprefix, h,
    symbol_of_head hf (by decide), String.ofList_toList]

theorem introducedName?_helper :
    introducedName? s!"declare ptr @{intToStringSymbol}(i32)" = some intToStringSymbol := by
  decide +kernel

theorem introducedName?_of_head {line : String} {c : Char} {rest : List Char}
    (h : line.toList = c :: rest) (hstring : c ≠ '@') (hfunction : c ≠ 'd') :
    introducedName? line = none := by
  have hne (c' : Char) (keyword : List Char) (hc : c ≠ c') :
      (c' :: keyword).isPrefixOf line.toList = false := by
    rw [h, List.isPrefixOf, beq_eq_false_iff_ne.mpr hc.symm, Bool.false_and]
  have hdeclare : "declare ".toList.isPrefixOf line.toList = false := hne 'd' _ hfunction
  have hdefine : "define ".toList.isPrefixOf line.toList = false := hne 'd' _ hfunction
  have hat : "@".toList.isPrefixOf line.toList = false := hne '@' _ hstring
  rw [introducedName?, definedSymbol?, hat, hdeclare, hdefine]
  rfl

theorem introducedName?_define {line : String} (h : "define ".toList <+: line.toList) :
    introducedName? line = definedSymbol? line := by
  obtain ⟨rest, hline⟩ := h
  have hat : "@".toList.isPrefixOf line.toList = false := by
    rw [← hline]
    rfl
  have hdeclare : "declare ".toList.isPrefixOf line.toList = false := by
    rw [← hline]
    rfl
  rw [introducedName?, hat, hdeclare]
  rfl

theorem introducedNames_headLines {f : IRFunction} (hf : IsPlain f.symbol) :
    f.headLines.filterMap introducedName? = [f.symbol] := by
  rw [← definedSymbols_headLines hf]
  refine List.filterMap_congr fun line hline => ?_
  rcases List.mem_cons.mp hline with rfl | hentry
  · refine introducedName?_define ?_
    simp only [toString, String.toList_append, List.append_assoc]
    exact List.prefix_append ..
  · obtain rfl := List.mem_singleton.mp hentry
    decide

theorem IRInstruction.exists_toList_text (i : IRInstruction) :
    ∃ rest, i.text.toList = ' ' :: rest := by
  unfold IRInstruction.text
  split <;> simp [toString]

theorem IRReturn.exists_toList_text (r : IRReturn) : ∃ rest, r.text.toList = ' ' :: rest := by
  cases r <;> simp [IRReturn.text, toString]

theorem introducedNames_body {b : IRBody} {f : IRFunction} (hb : b.head = some f)
    (hf : IsPlain f.symbol) : b.lines.filterMap introducedName? = [f.symbol] := by
  have hcode : (b.code.toList.map IRInstruction.text).filterMap introducedName? = [] := by
    refine List.filterMap_eq_nil_iff.mpr fun line hline => ?_
    obtain ⟨i, -, rfl⟩ := List.mem_map.mp hline
    obtain ⟨rest, htext⟩ := i.exists_toList_text
    exact introducedName?_of_head htext (by decide) (by decide)
  have hlast : [b.last.text, "\x7d", ""].filterMap introducedName? = [] := by
    obtain ⟨rest, htext⟩ := b.last.exists_toList_text
    rw [List.filterMap_cons_none (introducedName?_of_head htext (by decide) (by decide))]
    decide
  rw [IRBody.lines, hb, List.filterMap_append, List.filterMap_append, hcode, hlast,
    List.append_nil, List.append_nil, Option.map_some, Option.getD_some,
    introducedNames_headLines hf]

namespace IRModule
variable {d : Dictionary} {m : IRModule} {functions : FunctionTable IRModule.target}
  {fs : List IRFunction}

theorem introducedNames_bodies {bodies : List IRBody}
    (h : List.Forall₂ (fun (b : IRBody) f => b.head = some f) bodies fs)
    (hfs : ∀ f ∈ fs, IsPlain f.symbol) :
    (bodies.flatMap IRBody.lines).filterMap introducedName? = fs.map IRFunction.symbol := by
  induction h with
  | nil => rfl
  | @cons b f bodies fs hb _ ih =>
    have hnames := ih fun f' hf' => hfs f' (List.mem_cons_of_mem f hf')
    rw [List.flatMap_cons, List.filterMap_append, hnames,
      introducedNames_body hb (hfs f List.mem_cons_self)]
    rfl

theorem introducedNames_head (m : IRModule) : m.headLines.filterMap introducedName? = [] := by
  refine List.filterMap_eq_nil_iff.mpr fun line hline => ?_
  simp only [headLines, List.mem_cons, List.not_mem_nil, or_false] at hline
  rcases hline with rfl | rfl | rfl | rfl
  · exact introducedName?_of_head (c := ';') (by simp [toString]; rfl) (by decide) (by decide)
  · exact introducedName?_of_head (c := 's') (by simp [toString]; rfl) (by decide) (by decide)
  · exact introducedName?_of_head (c := 't') (by simp [toString]; rfl) (by decide) (by decide)
  · decide

theorem stringLines_eq (m : IRModule) : m.stringLines = if m.strings.isEmpty then []
    else m.strings.toList.zipIdx.map (fun x => stringLine x.2 x.1) ++ [""] := rfl

theorem introducedNames_stringLines (m : IRModule) :
    m.stringLines.filterMap introducedName? = m.stringNames := by
  have hline : (introducedName? ∘ fun x : String × Nat => stringLine x.2 x.1) =
      some ∘ fun x => stringName x.2 := by
    funext x
    rw [Function.comp_apply, introducedName?_stringLine, Function.comp_apply]
  have hstrings : (m.strings.toList.zipIdx.map fun x => stringLine x.2 x.1).filterMap
      introducedName? = m.stringNames := by
    calc (m.strings.toList.zipIdx.map fun x => stringLine x.2 x.1).filterMap introducedName?
        = m.strings.toList.zipIdx.map fun x => stringName x.2 := by
          rw [List.filterMap_map, hline, List.filterMap_eq_map]
      _ = (m.strings.toList.zipIdx.map Prod.snd).map stringName := by
          rw [List.map_map]
          rfl
      _ = m.stringNames := by
          rw [List.zipIdx_map_snd, ← List.range_eq_range', Array.length_toList, stringNames]
  rw [stringLines_eq]
  split_ifs with h
  · rw [stringNames, Array.isEmpty_iff_size_eq_zero.mp h]
    rfl
  · rw [List.filterMap_append, hstrings]
    exact List.append_nil _

def declarations (m : IRModule) : List String := m.external.map IRFunction.declareLine ++
  if m.usesIntToString then [s!"declare ptr @{intToStringSymbol}(i32)"] else []

theorem declareLines_eq (m : IRModule) : m.declareLines =
    if m.declarations.isEmpty then [] else "; External declarations" :: m.declarations := by
  have hexternal : (m.declared.toList.filterMap fun (f, hasBody) =>
      if hasBody then none else some f.declareLine) = m.external.map IRFunction.declareLine := by
    rw [external, List.map_filterMap]
    refine List.filterMap_congr ?_
    rintro ⟨f, hasBody⟩ -
    cases hasBody <;> rfl
  rw [declareLines, hexternal]
  rfl

theorem introducedNames_declareLines (h : ∀ f ∈ m.external, IsPlain f.symbol) :
    m.declareLines.filterMap introducedName? =
      m.external.map IRFunction.symbol ++ m.helperNames := by
  have hnames : m.declarations.filterMap introducedName? =
      m.external.map IRFunction.symbol ++ m.helperNames := by
    rw [declarations, List.filterMap_append]
    refine congrArg₂ (· ++ ·) ?_ ?_
    · rw [List.filterMap_map, ← List.filterMap_eq_map]
      refine List.filterMap_congr fun f hf => ?_
      rw [Function.comp_apply, introducedName?_declareLine (h f hf), Function.comp_apply]
    · unfold helperNames
      split_ifs
      · exact List.filterMap_cons_some introducedName?_helper
      · rfl
  rw [declareLines_eq]
  split_ifs with hempty
  · rw [← hnames, List.isEmpty_iff.mp hempty]
  · exact (List.filterMap_cons_none (by decide)).trans hnames

/-- A module introduces the names of its strings, of its functions and of the one that it needs. -/
theorem introducedNames_lines
    (h : List.Forall₂ (fun (b : IRBody) f => b.head = some f) m.bodies.toList fs)
    (hfs : ∀ f ∈ fs, IsPlain f.symbol) (hexternal : ∀ f ∈ m.external, IsPlain f.symbol) :
    m.lines.filterMap introducedName? = m.stringNames ++ (fs.map IRFunction.symbol ++
      m.external.map IRFunction.symbol) ++ m.helperNames := by
  rw [lines, List.filterMap_append, List.filterMap_append, List.filterMap_append,
    introducedNames_head, introducedNames_stringLines, introducedNames_bodies h hfs,
    introducedNames_declareLines hexternal, List.nil_append]
  simp only [List.append_assoc]

/-- No name is introduced twice just when no function has one that is reserved. -/
theorem nodup_introducedNames_iff (hm : m.Coherent) (h : Defines d m functions fs) :
    (m.lines.filterMap introducedName?).Nodup ↔
      ∀ f b, (f, b) ∈ m.declared → f.symbol ∉ m.reserved := by
  have hnames := introducedNames_lines h.heads (fun f hf => h.plain (h.marked.mpr hf))
    fun f hf => h.plain (mem_external.mp hf)
  have hperm : (m.lines.filterMap introducedName?).Perm
      (m.reserved ++ (fs.map IRFunction.symbol ++ m.external.map IRFunction.symbol)) := by
    rw [hnames, reserved, List.append_assoc m.stringNames, List.append_assoc m.stringNames]
    exact List.perm_append_comm.append_left _
  rw [hperm.nodup_iff, List.nodup_append']
  constructor
  · rintro ⟨-, -, hdisjoint⟩ f b hf hreserved
    exact hdisjoint hreserved ((mem_symbols_iff h).mpr ⟨f, b, hf, rfl⟩)
  · refine fun hfree => ⟨m.nodup_reserved, nodup_symbols hm h, fun name hreserved hsymbol => ?_⟩
    obtain ⟨f, b, hf, rfl⟩ := (mem_symbols_iff h).mp hsymbol
    exact hfree f b hf hreserved

end IRModule

/-! ### The words of the functions -/

def Word.linkName? (w : Word) : Option String :=
  match w.kind with
  | .compiled d => some d.name
  | .external _ symbol => some symbol
  | .builtin _ | .pending => none

theorem Word.isUser_of_linkName? {w : Word} {name : String} (h : w.linkName? = some name) :
    w.isUser = true := by
  unfold Word.linkName? at h
  unfold Word.isUser
  cases hk : w.kind with
  | compiled => rfl
  | external => rfl
  | builtin b =>
    rw [hk] at h
    cases h
  | pending =>
    rw [hk] at h
    cases h

namespace IRModule
variable {d : Dictionary} {m m' : IRModule} {functions : FunctionTable IRModule.target}
  {f g : IRFunction}

def NamedAfter (w : Word) (f : IRFunction) : Prop :=
  ∃ name n, w.linkName? = some name ∧ f.symbol = numbered (mangled name) n

/-- Each function that has been declared belongs to a word, after which it is named. -/
structure Owned (d : Dictionary) (m : IRModule) (functions : FunctionTable IRModule.target) :
    Prop where
  owner : ∀ {f b}, (f, b) ∈ m.declared →
    ∃ id w, d.word? id = some w ∧ functions[id]? = some (some f)
  named : ∀ {id w f}, d.word? id = some w → functions[id]? = some (some f) → NamedAfter w f

theorem Owned.markInline (h : Owned d m functions) (id : WordId) :
    Owned (d.markInline id) m functions where
  owner hf := by
    obtain ⟨i, w, hw, hfunction⟩ := h.owner hf
    obtain ⟨isInline, hv⟩ := Dictionary.word?_setInline_of_some true hw
    exact ⟨i, _, hv, hfunction⟩
  named {i w f} hw hf := by
    have hw' : (d.setInline id true).word? i = some w := hw
    obtain ⟨v, hv, heq, -⟩ := Dictionary.word?_setInline hw'
    rw [heq]
    exact h.named (w := v) hv hf

/-- A word is entered with a function that is named after it, or with none. -/
theorem Owned.enter (hl : Linked d m functions) (h : Owned d m functions) {w : Word}
    {x : Option IRFunction}
    (hm : ∀ {f b}, (f, b) ∈ m'.declared → x = some f ∨ ∃ b', (f, b') ∈ m.declared)
    (hx : ∀ g, x = some g → NamedAfter w g) :
    Owned (d.enter w) m' (functions.push x) where
  owner {f b} hf := by
    rcases hm hf with rfl | ⟨b', hf⟩
    · exact ⟨d.size, w, Dictionary.word?_enter_eq_some.mpr (.inl ⟨rfl, rfl⟩),
        by rw [← hl.size, Array.getElem?_push_size]⟩
    · obtain ⟨id, v, hv, hfunction⟩ := h.owner hf
      exact ⟨id, v, Dictionary.word?_enter_of_some w hv,
        (hl.getElem?_push x id (Dictionary.lt_size_of_word? hv)).trans hfunction⟩
  named {id v f} hv hf := by
    rcases Dictionary.word?_enter_eq_some.mp hv with ⟨rfl, rfl⟩ | hv
    · rw [← hl.size, Array.getElem?_push_size] at hf
      exact hx f (Option.some.inj hf)
    · rw [hl.getElem?_push x id (Dictionary.lt_size_of_word? hv)] at hf
      exact h.named hv hf

theorem declared_of_declare (name : String) {symbol : String} {signature : Signature}
    (hd : declare name symbol signature m = .ok g m') {b : Bool} (hf : (f, b) ∈ m'.declared) :
    some g = some f ∨ ∃ b', (f, b') ∈ m.declared := by
  obtain ⟨-, -, ⟨-, -, rfl⟩ | ⟨-, -, rfl⟩⟩ := declare_eq_ok name hd
  · exact .inr ⟨b, hf⟩
  · rcases Array.mem_push.mp hf with hold | hnew
    · exact .inr ⟨b, hold⟩
    · cases hnew
      exact .inl rfl

theorem lasting_owned : Session.Lasting (T := IRModule.target) fun d m functions =>
    Linked d m functions ∧ Owned d m functions where
  markInline id hi := ⟨lasting_linked.markInline id hi.1, hi.2.markInline id⟩
  execute _ _ hi := hi
  takeOutput hi := hi
  declare {d m functions name symbol signature g m'} hi hv hd := by
    refine ⟨lasting_linked.declare hi.1 hv hd, hi.2.enter hi.1 (declared_of_declare name hd) ?_⟩
    rintro f ⟨⟩
    obtain ⟨n, hn⟩ := exists_numbered_of_declare name hd
    exact ⟨symbol, n, rfl, hn⟩
  declareFailed hi hd := by
    obtain ⟨rfl, -⟩ := declare_eq_error "" hd
    exact hi
  abandon name hi := ⟨lasting_linked.abandon name hi.1,
    hi.2.enter hi.1 (fun hf => .inr ⟨_, hf⟩) nofun⟩
  define {d m functions name body draft g m'} hi hread hg := by
    refine ⟨lasting_linked.define hi.1 hread hg, ?_⟩
    obtain ⟨m₁, table, code, operands, strings, uses, hs, -, hd, -, -, -, rfl⟩ :=
      generate_eq_ok (Session.sound_toDefinition hi.1.sound hread) hg
    rw [hi.1.complete_eq]
    refine hi.2.enter hi.1 (fun {f b} hf => ?_) ?_
    · rw [declared_withBody, (hi.1.coherent.declare _ hd).mem_markDefined] at hf
      rcases hf with ⟨-, -, b', hf⟩ | ⟨-, hf⟩
      · exact declared_of_declare _ hd hf
      · exact declared_of_declare _ hd hf
    · rintro f ⟨⟩
      obtain ⟨n, hn⟩ := exists_numbered_of_declare _ hd
      exact ⟨name, n, rfl, hn⟩
  defineFailed {d m functions name body draft e m'} hi hread hg := by
    obtain ⟨rfl, -⟩ := hi.1.generate_eq_error hread hg
    exact ⟨lasting_linked.abandon name hi.1, hi.2.enter hi.1 (fun hf => .inr ⟨_, hf⟩) nofun⟩

theorem owned_withBuiltins (name triple : String) : Owned .withBuiltins { name, triple }
    (Array.replicate Dictionary.withBuiltins.size none) where
  owner hf := by simp at hf
  named {id w f} _ hf := by
    rw [Array.getElem?_replicate] at hf
    split_ifs at hf
    cases hf

/-- A function has a reserved name only if the name of its word is spelled like one, or like what
the names of strings start with. -/
theorem NamedAfter.reserved {w : Word} (h : NamedAfter w f) (hf : f.symbol ∈ m.reserved) :
    ∃ name, w.linkName? = some name ∧ mangled name ∈ ".str" :: m.reserved := by
  obtain ⟨name, n, hname, hsymbol⟩ := h
  refine ⟨name, hname, ?_⟩
  rcases List.mem_append.mp hf with hstring | hhelper
  · obtain ⟨k, hk, hstring'⟩ := List.mem_map.mp hstring
    rcases base_of_stringName (hsymbol.symm.trans hstring'.symm) with hbase | hbase
    · rw [hbase]
      exact List.mem_cons_of_mem _ (List.mem_append_left _ (List.mem_map.mpr ⟨k, hk, rfl⟩))
    · exact hbase ▸ List.mem_cons_self
  · refine List.mem_cons_of_mem _ (List.mem_append_right _ ?_)
    unfold helperNames at hhelper ⊢
    split_ifs at hhelper ⊢
    · have hbase := base_of_intToString (hsymbol.symm.trans (List.mem_singleton.mp hhelper))
      exact List.mem_singleton.mpr hbase
    · cases hhelper

end IRModule

namespace Session

theorem Reachable.owned {name triple : String} {s : Session IRModule.target}
    (h : Reachable ({ name, triple } : IRModule) s) :
    IRModule.Owned s.dictionary s.target s.functions :=
  (h.holds IRModule.lasting_owned ⟨IRModule.linked_withBuiltins name triple,
    IRModule.owned_withBuiltins name triple⟩).2

end Session

/-- In the module that a text compiles to, each global name is introduced once just when no word has
a function with a reserved name: with that of a string, or with that of the function that turns
integers into strings if the module needs it. The word of such a function has a name that is spelled
like a reserved one, or like `.str`, to which a number has been added. -/
theorem introduced_once_iff {text ir : String} {config : Config}
    (h : compileText text config = .ok ir) : ∃ start s, moduleSession config = .ok start ∧
      start.afterRun text = .ok s ∧ ir = s.target.text ∧
      ((s.target.lines.filterMap introducedName?).Nodup ↔ ∀ id w f,
        s.dictionary.word? id = some w → s.functions[id]? = some (some f) →
          f.symbol ∉ s.target.reserved) ∧
      ∀ id w f, s.dictionary.word? id = some w → s.functions[id]? = some (some f) →
        f.symbol ∈ s.target.reserved →
          ∃ name, w.linkName? = some name ∧ mangled name ∈ ".str" :: s.target.reserved := by
  obtain ⟨start, s, hstart, hs, hir⟩ := compileText_eq_ok.mp h
  have hreachable := (Session.Reachable.start hstart).afterRun hs
  have howned := hreachable.owned
  have hlinked := hreachable.linked_module
  obtain ⟨fs, hdefines⟩ := hreachable.defines
  refine ⟨start, s, hstart, hs, hir, ?_, fun id w f hw hf => (howned.named hw hf).reserved⟩
  rw [IRModule.nodup_introducedNames_iff hlinked.coherent hdefines]
  constructor
  · intro hfree id w f hw hf
    obtain ⟨name, -, hname, -⟩ := howned.named hw hf
    obtain ⟨f', hf', -, b, hmem⟩ := hlinked.answers hw (Word.isUser_of_linkName? hname)
    cases hf.symm.trans hf'
    exact hfree f b hmem
  · intro hfree f b hf
    obtain ⟨id, w, hw, hfunction⟩ := howned.owner hf
    exact hfree id w f hw hfunction

def labelled : String := ": label \"n = \" ; : shown i>s ; : .str 1 ; : .str 2 ;"

theorem introduced_once_iff_labelled : ∃ ir, compileText labelled {} = .ok ir ∧
    ∃ start s, moduleSession {} = .ok start ∧ start.afterRun labelled = .ok s ∧
      ir = s.target.text ∧
      ((s.target.lines.filterMap introducedName?).Nodup ↔ ∀ id w f,
        s.dictionary.word? id = some w → s.functions[id]? = some (some f) →
          f.symbol ∉ s.target.reserved) ∧
      ∀ id w f, s.dictionary.word? id = some w → s.functions[id]? = some (some f) →
        f.symbol ∈ s.target.reserved →
          ∃ name, w.linkName? = some name ∧ mangled name ∈ ".str" :: s.target.reserved := by
  obtain ⟨ir, h⟩ : ∃ ir, compileText labelled {} = .ok ir :=
    Except.exists_of_isOk (by decide +kernel)
  exact ⟨ir, h, introduced_once_iff h⟩

/-- A text in which a word has the name of a string, and another that of the function that turns
integers into strings. -/
def impostors : String := ": .str.0 \"x\" ; : llforth-int-to-string i>s ;"

/-- Two of the names are introduced twice, for a word and for something else. -/
theorem introduced_twice :
    (moduleSession {} >>= fun start => start.afterRun impostors).map
        (fun s => s.target.lines.filterMap introducedName?) =
      .ok [".str.0", ".str.0", "llforth_int_to_string", "llforth_int_to_string"] := by
  decide +kernel

end StackEffect
