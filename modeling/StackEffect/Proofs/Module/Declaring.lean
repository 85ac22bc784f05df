import Mathlib.Data.List.Nodup
import Mathlib.Data.List.Perm.Subperm
import StackEffect.IRTarget
import StackEffect.Proofs.Sequencing

/-!
Functions that have been declared. They have symbols of their own (`Coherent`): a declaration either
repeats one that has no body yet or takes a symbol that is free (`declare_eq_ok`), and one that is
refused changes nothing (`declare_eq_error`).
-/
namespace StackEffect

/-! ### Free symbols -/

def candidates (base : String) (count : Nat) : List String :=
  base :: (List.range count).map fun n => s!"{base}.{n + 1}"

theorem nodup_candidates (base : String) (count : Nat) : (candidates base count).Nodup := by
  have hsuffix : ∀ n : Nat, s!"{base}.{n + 1}" = base ++ ("." ++ (n + 1).repr) := by
    intro n
    exact String.append_assoc ..
  refine List.nodup_cons.mpr ⟨fun h => ?_, List.Nodup.map (fun m n h => ?_) List.nodup_range⟩
  · obtain ⟨n, -, hn⟩ := List.mem_map.mp h
    have hl := congrArg String.length hn
    rw [hsuffix, String.length_append, String.length_append] at hl
    have hpoint : ".".length = 1 := rfl
    omega
  · -- The digits after the point tell the number.
    simp only [hsuffix, String.append_right_inj, Nat.repr_eq_ofList_toDigits,
      String.ofList_inj] at h
    have hdigits := congrArg (Nat.ofDigitChars 10 · 0) h
    simp only [Nat.ofDigitChars_ten_toDigits] at hdigits
    exact Nat.succ.inj hdigits

/-- There are more candidates than taken symbols, so that one of them is free. -/
theorem unusedSymbol_not_mem (taken : List String) (base : String) :
    unusedSymbol taken base ∉ taken := by
  have heq : unusedSymbol taken base =
      ((candidates base taken.length).find? fun symbol => !taken.contains symbol).getD base := rfl
  cases h : (candidates base taken.length).find? fun symbol => !taken.contains symbol with
  | some symbol =>
    rw [heq, h, Option.getD_some]
    simpa using List.find?_some h
  | none =>
    have hsubset : candidates base taken.length ⊆ taken := by
      intro symbol hs
      simpa using List.find?_eq_none.mp h symbol hs
    have hle := ((nodup_candidates base taken.length).subperm hsubset).length_le
    simp only [candidates, List.length_cons, List.length_map, List.length_range] at hle
    exact absurd hle (Nat.not_succ_le_self _)

def numbered (base : String) : Nat → String
  | 0 => base
  | n + 1 => s!"{base}.{n + 1}"

theorem candidates_eq (base : String) (count : Nat) :
    candidates base count = (List.range (count + 1)).map (numbered base) := by
  rw [List.range_succ_eq_map, List.map_cons, List.map_map]
  rfl

/-- The search stops at the first symbol that is free. -/
theorem unusedSymbol_eq_numbered (taken : List String) (base : String) :
    ∃ n, unusedSymbol taken base = numbered base n ∧ ∀ i < n, numbered base i ∈ taken := by
  have heq : unusedSymbol taken base =
      ((candidates base taken.length).find? fun symbol => !taken.contains symbol).getD base := rfl
  cases h : (candidates base taken.length).find? fun symbol => !taken.contains symbol with
  | none => exact ⟨0, by rw [heq, h]; rfl, fun i hi => absurd hi (Nat.not_lt_zero i)⟩
  | some symbol =>
    obtain ⟨-, n, hn, hsymbol, hbefore⟩ := List.find?_eq_some_iff_getElem.mp h
    simp only [candidates_eq, List.getElem_map, List.getElem_range] at hsymbol hbefore
    refine ⟨n, by rw [heq, h, hsymbol]; rfl, fun i hi => ?_⟩
    simpa using hbefore i hi

/-- The function has the types of its signature. -/
structure IRFunction.Typed (f : IRFunction) : Prop where
  parameters : f.signature.inputs.mapM IRType.ofValueType = .ok f.parameters
  results : f.signature.outputs.mapM IRType.ofValueType = .ok f.results

theorem IRFunction.Typed.ext {f f' : IRFunction} (h : f.Typed) (h' : f'.Typed)
    (hsymbol : f.symbol = f'.symbol) (hsignature : f.signature = f'.signature) : f = f' := by
  obtain ⟨symbol, signature, parameters, results⟩ := f
  obtain ⟨symbol', signature', parameters', results'⟩ := f'
  obtain rfl : symbol = symbol' := hsymbol
  obtain rfl : signature = signature' := hsignature
  obtain rfl : parameters = parameters' := Except.ok.inj (h.parameters.symm.trans h'.parameters)
  obtain rfl : results = results' := Except.ok.inj (h.results.symm.trans h'.results)
  rfl

theorem IRFunction.Typed.length_results {f : IRFunction} (h : f.Typed) :
    f.results.length = f.signature.outputArity :=
  (Except.mapM_eq_ok.mp h.results).length_eq.symm

theorem IRType.ofValueType_error {type : ValueType} {e : CompileError}
    (h : ofValueType type = .error e) : e = .unsupported (.loweringType type) := by
  cases type <;> cases h <;> rfl

namespace IRModule
variable {m m' : IRModule} {f f' : IRFunction} {b b' : Bool}

def symbols (m : IRModule) : List String := m.declared.toList.map fun x => x.1.symbol

theorem mem_symbols (hf : (f, b) ∈ m.declared) : f.symbol ∈ m.symbols :=
  List.mem_map.mpr ⟨(f, b), hf.val, rfl⟩

/-- Functions are told apart by their symbols. -/
structure Coherent (m : IRModule) : Prop where
  distinct : m.symbols.Nodup
  typed : ∀ {f b}, (f, b) ∈ m.declared → f.Typed

theorem Coherent.eq_of_symbol (h : m.Coherent) (hf : (f, b) ∈ m.declared)
    (hf' : (f', b') ∈ m.declared) (hs : f.symbol = f'.symbol) : (f, b) = (f', b') :=
  List.inj_on_of_nodup_map h.distinct hf.val hf'.val hs

theorem declared?_eq_some {symbol : String} {x : IRFunction × Bool}
    (h : m.declared? symbol = some x) : x ∈ m.declared ∧ x.1.symbol = symbol :=
  ⟨Array.mem_of_find?_eq_some h, by simpa using Array.find?_some h⟩

theorem Coherent.declared?_of_mem (h : m.Coherent) (hf : (f, b) ∈ m.declared) :
    m.declared? f.symbol = some (f, b) := by
  cases hd : m.declared? f.symbol with
  | none =>
    have hnone := Array.find?_eq_none.mp hd (f, b) hf
    simp at hnone
  | some x =>
    obtain ⟨hx, hs⟩ := declared?_eq_some hd
    exact congrArg some (h.eq_of_symbol hx hf hs)

/-! ### Declaring -/

theorem declare_eq (name symbol : String) (signature : Signature) (m : IRModule) :
    declare name symbol signature m =
      match signature.outputs.mapM IRType.ofValueType, signature.inputs.mapM IRType.ofValueType with
      | .error e, _ => .error e m
      | .ok _, .error e => .error e m
      | .ok results, .ok parameters =>
        if m.isRepeated (mangled symbol) signature then
          .ok { symbol := mangled symbol, signature, parameters, results } m
        else
          let f : IRFunction :=
            { symbol := unusedSymbol m.symbols (mangled symbol), signature, parameters, results }
          .ok f { m with declared := m.declared.push (f, false) } := by
  unfold declare
  simp only [Action.bind_apply]
  cases signature.outputs.mapM IRType.ofValueType with
  | error e => rfl
  | ok results =>
    cases signature.inputs.mapM IRType.ofValueType with
    | error e => rfl
    | ok parameters =>
      simp only [Action.ofExcept_ok, Action.get_apply]
      cases m.isRepeated (mangled symbol) signature <;> simp [Action.bind_apply, symbols]

/-- Either the function has been declared before and has no body, or it is a new one. -/
theorem declare_eq_ok (name : String) {symbol : String} {signature : Signature}
    (h : declare name symbol signature m = .ok f m') : f.Typed ∧ f.signature = signature ∧
      (f.symbol = mangled symbol ∧ m.isRepeated (mangled symbol) signature = true ∧ m' = m ∨
        m.isRepeated (mangled symbol) signature = false ∧
          f.symbol ∉ m.symbols ∧ m' = { m with declared := m.declared.push (f, false) }) := by
  rw [declare_eq] at h
  cases hr : signature.outputs.mapM IRType.ofValueType with
  | error e => simp [hr] at h
  | ok results =>
    cases hp : signature.inputs.mapM IRType.ofValueType with
    | error e => simp [hr, hp] at h
    | ok parameters =>
      simp only [hr, hp] at h
      cases hrep : m.isRepeated (mangled symbol) signature with
      | true =>
        rw [hrep, if_pos rfl] at h
        cases h
        exact ⟨⟨hp, hr⟩, rfl, .inl ⟨rfl, rfl, rfl⟩⟩
      | false =>
        rw [hrep, if_neg Bool.false_ne_true] at h
        cases h
        exact ⟨⟨hp, hr⟩, rfl, .inr ⟨rfl, unusedSymbol_not_mem _ _, rfl⟩⟩

theorem bodies_of_declare (name : String) {symbol : String} {signature : Signature}
    (h : declare name symbol signature m = .ok f m') : m'.bodies = m.bodies := by
  obtain ⟨-, -, ⟨-, -, rfl⟩ | ⟨-, -, rfl⟩⟩ := declare_eq_ok name h <;> rfl

theorem strings_of_declare (name : String) {symbol : String} {signature : Signature}
    (h : declare name symbol signature m = .ok f m') : m'.strings = m.strings := by
  obtain ⟨-, -, ⟨-, -, rfl⟩ | ⟨-, -, rfl⟩⟩ := declare_eq_ok name h <;> rfl

/-- What is turned down is turned down for a type, and leaves the module as it was. -/
theorem declare_eq_error (name : String) {symbol : String} {signature : Signature}
    {e : CompileError}
    (h : declare name symbol signature m = .error e m') :
    m' = m ∧ ∃ type, e = .unsupported (.loweringType type) := by
  have htypes : ∀ {types : List ValueType} {e}, types.mapM IRType.ofValueType = .error e →
      ∃ type, e = .unsupported (.loweringType type) := by
    intro types e ht
    obtain ⟨type, -, he⟩ := Except.exists_of_mapM_eq_error ht
    exact ⟨type, IRType.ofValueType_error he⟩
  rw [declare_eq] at h
  cases hr : signature.outputs.mapM IRType.ofValueType with
  | error e =>
    simp only [hr] at h
    cases h
    exact ⟨rfl, htypes hr⟩
  | ok results =>
    cases hp : signature.inputs.mapM IRType.ofValueType with
    | error e =>
      simp only [hr, hp] at h
      cases h
      exact ⟨rfl, htypes hp⟩
    | ok parameters =>
      simp only [hr, hp] at h
      split at h <;> cases h

theorem exists_declare {signature : Signature} {parameters results : List IRType}
    (hp : signature.inputs.mapM IRType.ofValueType = .ok parameters)
    (hr : signature.outputs.mapM IRType.ofValueType = .ok results) (name symbol : String)
    (m : IRModule) : ∃ f m', declare name symbol signature m = .ok f m' := by
  rw [declare_eq]
  simp only [hr, hp]
  split
  · exact ⟨_, _, rfl⟩
  · exact ⟨_, _, rfl⟩

theorem isRepeated_iff {symbol : String} {signature : Signature} :
    m.isRepeated symbol signature = true ↔
      ∃ f, m.declared? symbol = some (f, false) ∧ f.signature = signature := by
  unfold isRepeated
  cases m.declared? symbol with
  | none => simp
  | some x =>
    obtain ⟨f, b⟩ := x
    cases b <;> simp

/-- With the symbols apart, a function that is declared is one that has no body yet or a new one. -/
theorem Coherent.declare_eq_ok (h : m.Coherent) (name : String) {symbol : String}
    {signature : Signature}
    (hd : declare name symbol signature m = .ok f m') :
    (f, false) ∈ m.declared ∧ f.symbol = mangled symbol ∧ m' = m ∨
      (∀ {f' b}, (f', b) ∈ m.declared → f'.symbol ≠ f.symbol) ∧
        (∀ {f'}, (f', false) ∈ m.declared → f'.symbol = mangled symbol →
          f'.signature ≠ signature) ∧
        m' = { m with declared := m.declared.push (f, false) } := by
  obtain ⟨htyped, rfl, ⟨hs, hrep, rfl⟩ | ⟨hrep, hfresh, rfl⟩⟩ := IRModule.declare_eq_ok name hd
  · obtain ⟨f', hf', hsignature⟩ := isRepeated_iff.mp hrep
    obtain ⟨hmem, hs'⟩ := declared?_eq_some hf'
    have heq : f' = f := (h.typed hmem).ext htyped (hs'.trans hs.symm) hsignature
    exact .inl ⟨heq ▸ hmem, hs, rfl⟩
  · refine .inr ⟨fun {f' b} hmem heq => hfresh (heq ▸ mem_symbols hmem),
      fun {f'} hmem hs hsignature => ?_, rfl⟩
    · have hd' := h.declared?_of_mem hmem
      rw [hs] at hd'
      rw [isRepeated_iff.mpr ⟨f', hd', hsignature⟩] at hrep
      cases hrep

theorem mem_of_declare (h : m.Coherent) (name : String) {symbol : String} {signature : Signature}
    (hd : declare name symbol signature m = .ok f m') :
    (∃ b, (f, b) ∈ m'.declared) ∧ ∀ {x}, x ∈ m.declared → x ∈ m'.declared := by
  rcases h.declare_eq_ok name hd with ⟨hmem, -, rfl⟩ | ⟨-, -, rfl⟩
  · exact ⟨⟨_, hmem⟩, id⟩
  · exact ⟨⟨false, Array.mem_push_self⟩, Array.mem_push_of_mem _⟩

theorem Coherent.defined_declare (h : m.Coherent) (name : String) {symbol : String}
    {signature : Signature} (hd : declare name symbol signature m = .ok f m') :
    (f', true) ∈ m'.declared ↔ (f', true) ∈ m.declared := by
  rcases h.declare_eq_ok name hd with ⟨-, -, rfl⟩ | ⟨-, -, rfl⟩
  · exact Iff.rfl
  · simp

theorem Coherent.repeated_of_symbol (h : m.Coherent) (name : String) {symbol : String}
    {signature : Signature} (hd : declare name symbol signature m = .ok f m')
    (hf : (f', b) ∈ m.declared) (hs : f'.symbol = f.symbol) :
    (f, false) ∈ m.declared ∧ f.symbol = mangled symbol := by
  rcases h.declare_eq_ok name hd with ⟨hmem, hname, -⟩ | ⟨hfresh, -, -⟩
  · exact ⟨hmem, hname⟩
  · exact absurd hs (hfresh hf)

theorem Coherent.eq_of_declare (h : m.Coherent) (name : String) {symbol : String}
    {signature : Signature} (hd : declare name symbol signature m = .ok f m')
    (hf : (f', false) ∈ m.declared) (hs : f'.symbol = mangled symbol)
    (hsignature : f'.signature = signature) : f' = f := by
  rcases h.declare_eq_ok name hd with ⟨hmem, hname, -⟩ | ⟨-, hfree, -⟩
  · exact congrArg Prod.fst (h.eq_of_symbol hf hmem (hs.trans hname.symm))
  · exact absurd hsignature (hfree hf hs)

theorem Coherent.declare (h : m.Coherent) (name : String) {symbol : String} {signature : Signature}
    (hd : declare name symbol signature m = .ok f m') : m'.Coherent := by
  have htyped := (IRModule.declare_eq_ok name hd).1
  rcases h.declare_eq_ok name hd with ⟨-, -, rfl⟩ | ⟨hfresh, -, rfl⟩
  · exact h
  · constructor
    · rw [symbols, Array.toList_push, List.map_append]
      refine List.Nodup.append h.distinct (List.nodup_singleton _) ?_
      intro symbol hs hnew
      obtain ⟨⟨f', b⟩, hmem, rfl⟩ := List.mem_map.mp hs
      exact hfresh (Array.mem_toList_iff.mp hmem) (List.mem_singleton.mp hnew)
    · intro f' b hmem
      rcases Array.mem_push.mp hmem with hmem | heq
      · exact h.typed hmem
      · cases heq
        exact htyped

/-! ### Noting a body -/

theorem Coherent.declared_markDefined (h : m.Coherent) (symbol : String) :
    (m.markDefined symbol).declared =
      m.declared.map fun x => if x.1.symbol = symbol then (x.1, true) else x := by
  unfold markDefined
  cases hn : m.declared.findIdx? fun x => decide (x.1.symbol = symbol) with
  | none =>
    have hnone := Array.findIdx?_eq_none_iff.mp hn
    refine (Array.map_id' _).symm.trans (Array.map_congr_left fun x hx => ?_)
    have hx' := hnone x hx
    simp only [decide_eq_false_iff_not] at hx'
    rw [if_neg hx']
  | some n =>
    obtain ⟨hlt, hp, -⟩ := Array.findIdx?_eq_some_iff_getElem.mp hn
    simp only [decide_eq_true_eq] at hp
    have hsymbols : ∀ i : Nat, m.symbols[i]? = (m.declared[i]?).map fun x => x.1.symbol := by
      simp [symbols]
    apply Array.ext_getElem?
    intro i
    rw [Array.getElem?_modify, Array.getElem?_map]
    cases hi : m.declared[i]? with
    | none => simp
    | some x =>
      by_cases hni : n = i
      · subst hni
        cases (Array.getElem?_eq_getElem hlt).symm.trans hi
        simp [hp]
      · have hx : x.1.symbol ≠ symbol := by
          intro hs
          have hlt' : n < m.symbols.length := by simpa [symbols] using hlt
          refine hni ((List.getElem?_inj hlt' h.distinct).mp ?_)
          rw [hsymbols, hsymbols, hi, Array.getElem?_eq_getElem hlt, Option.map_some,
            Option.map_some, hp, hs]
        simp [hni, hx]

theorem Coherent.mem_markDefined (h : m.Coherent) {symbol : String} :
    (f, b) ∈ (m.markDefined symbol).declared ↔
      f.symbol = symbol ∧ b = true ∧ (∃ b', (f, b') ∈ m.declared) ∨
        f.symbol ≠ symbol ∧ (f, b) ∈ m.declared := by
  rw [h.declared_markDefined, Array.mem_map]
  constructor
  · rintro ⟨⟨f', b'⟩, hmem, heq⟩
    by_cases hs : f'.symbol = symbol
    · rw [if_pos hs] at heq
      cases heq
      exact .inl ⟨hs, rfl, b', hmem⟩
    · rw [if_neg hs] at heq
      cases heq
      exact .inr ⟨hs, hmem⟩
  · rintro (⟨hs, rfl, b', hmem⟩ | ⟨hs, hmem⟩)
    · exact ⟨(f, b'), hmem, if_pos hs⟩
    · exact ⟨(f, b), hmem, if_neg hs⟩

theorem Coherent.markDefined (h : m.Coherent) (symbol : String) :
    (m.markDefined symbol).Coherent := by
  constructor
  · have hsymbols : (m.markDefined symbol).symbols = m.symbols := by
      rw [symbols, h.declared_markDefined, Array.toList_map, List.map_map]
      refine List.map_congr_left fun x _ => ?_
      by_cases hs : x.1.symbol = symbol <;> simp [hs]
    rw [hsymbols]
    exact h.distinct
  · intro f b hmem
    rcases h.mem_markDefined.mp hmem with ⟨-, -, b', hmem⟩ | ⟨-, hmem⟩
    · exact h.typed hmem
    · exact h.typed hmem

end IRModule
end StackEffect
