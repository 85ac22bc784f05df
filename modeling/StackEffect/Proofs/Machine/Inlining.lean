import StackEffect.Proofs.Machine.Acceptance
import StackEffect.Proofs.Session.History
import StackEffect.Proofs.Session.Running

/-!
An inline word is its body (`define_inlined`). A definition that names the word and one that has the
body in the place of the name are both accepted or neither is, they have the same signature, and their
functions answer and print the same. Types agree since composing the flows of operations is
associative (`Flow.along_splice`), values since the word does to a stack what its operations do one by
one (`Operation.runAll_splice`).
-/
namespace StackEffect.Session

theorem operation_of_known {d known : Dictionary} (h : ∀ i < known.size, d.word? i = known.word? i)
    {t : Token} (ht : (named d t).map Prod.fst = (named known t).map Prod.fst) :
    operation d t = operation known t := by
  have hnamed : named d t = named known t := by
    cases hk : named known t with
    | none =>
      rw [hk] at ht
      exact Option.map_eq_none_iff.mp ht
    | some x =>
      rw [hk] at ht
      obtain ⟨y, hy, hplace⟩ := Option.map_eq_some_iff.mp ht
      have hx := word?_of_named hk
      have hword := (h x.1 (Dictionary.lt_size_of_word? hx)).trans hx
      rw [← hplace, word?_of_named hy] at hword
      rw [hy, Prod.ext hplace (Option.some.inj hword)]
  unfold operation
  rw [hnamed]

/-- An inline word stands for the definition that its body makes, also where the body is read now. -/
theorem History.resolves_inline {T : Target} {target : T.State} {s : Session T}
    {entries : List Entry} (h : History target s entries) {known : Dictionary} {name : String}
    {body : List Token} (hentry : .defined known name body ∈ entries)
    (hbody : ∀ t ∈ body, (named s.dictionary t).map Prod.fst = (named known t).map Prod.fst)
    {t : Token} {w : Word} (ht : named s.dictionary t = some (known.size, w))
    (hinline : w.isInline = true) :
    ∃ draft own, body.mapM (operation s.dictionary) = .ok own ∧
      Operation.readAll own 0 {} = .ok () draft ∧
      operation s.dictionary t = .ok (.splice (draft.toDefinition name body)) := by
  obtain ⟨i, hi⟩ := List.mem_iff_getElem?.mp hentry
  obtain ⟨⟨id, v⟩, hx, rfl, hknown, draft, hread, hv⟩ :=
    Pointwise.right_of_left h.settled.entered hi
  obtain ⟨hword, -⟩ := Dictionary.word?_of_mem_entered (List.mem_of_getElem? hx)
  have hnamed : s.dictionary.word? known.size = some w := word?_of_named ht
  cases hword.symm.trans hnamed
  obtain ⟨own, hown, hread⟩ := readTokens_eq_ok.mp hread
  refine ⟨draft, own, ?_, hread, ?_⟩
  · refine Except.mapM_eq_ok.mpr ((Pointwise.with_mem (Except.mapM_eq_ok.mp hown)).imp ?_)
    rintro u op ⟨hu, hop⟩
    exact (operation_of_known hknown (hbody u hu)).trans hop
  · rw [hinline] at hv
    simp only [operation, ht, hv]
    rfl

section Inline
variable {d : Dictionary} {t : Token} {f : Draft} {name : String} {body before after : List Token}
  {own : List Operation} (hdict : d.Sound) (hown : body.mapM (operation d) = .ok own)
  (hf : Operation.readAll own 0 {} = .ok () f)
  (ht : operation d t = .ok (.splice (f.toDefinition name body)))
include hdict hown hf ht

/-- With the word or with its body in the place of the word, the same flows can be read. -/
theorem readBody_inline {F : Flow} :
    (∃ draft, readBody d (before ++ t :: after) {} = .ok () draft ∧ draft.flow = F) ↔
      ∃ draft, readBody d (before ++ body ++ after) {} = .ok () draft ∧ draft.flow = F := by
  have hword : [t].mapM (operation d) = .ok [.splice (f.toDefinition name body)] :=
    Except.mapM_cons_eq_ok.mpr ⟨_, [], ht, rfl, rfl⟩
  have halong : ∀ {first}, before.mapM (operation d) = .ok first → ∀ rest,
      ({} : Flow).along (first ++ [.splice (f.toDefinition name body)] ++ rest) =
        ({} : Flow).along (first ++ own ++ rest) := by
    intro first hfirst rest
    rw [← List.append_cons]
    exact Flow.along_splice (sound_operations hdict hfirst) (sound_operations hdict hown) hf rest
      name body
  rw [readBody_iff hdict, readBody_iff hdict, List.append_cons]
  simp only [Except.mapM_middle_eq_ok hword, Except.mapM_middle_eq_ok hown]
  constructor
  · rintro ⟨_, ⟨first, rest, hfirst, hrest, rfl⟩, hflow⟩
    exact ⟨_, ⟨first, rest, hfirst, hrest, rfl⟩, (halong hfirst rest).symm.trans hflow⟩
  · rintro ⟨_, ⟨first, rest, hfirst, hrest, rfl⟩, hflow⟩
    exact ⟨_, ⟨first, rest, hfirst, hrest, rfl⟩, (halong hfirst rest).trans hflow⟩

/-- With the word or with its body in the place of the word, a definition means the same. -/
theorem meaning_inline {calls : Calls} (hcounted : calls.Counted) {draft₁ draft₂ : Draft}
    (h₁ : readBody d (before ++ t :: after) {} = .ok () draft₁)
    (h₂ : readBody d (before ++ body ++ after) {} = .ok () draft₂)
    (hsize : draft₁.arguments.size = draft₂.arguments.size) {values : List Value}
    (hl : values.length = draft₁.arguments.size) (caller : String) (source source' : List Token) :
    (draft₁.toDefinition caller source).meaning calls values =
      (draft₂.toDefinition caller source').meaning calls values := by
  obtain ⟨_, hops₁, hread₁⟩ := readTokens_eq_ok.mp h₁
  obtain ⟨_, hops₂, hread₂⟩ := readTokens_eq_ok.mp h₂
  have hsound₁ := sound_operations hdict hops₁
  have hsound₂ := sound_operations hdict hops₂
  obtain ⟨first, _, hfirst, hlast, rfl⟩ := Except.mapM_append_eq_ok.mp hops₁
  obtain ⟨_, rest, hop, hrest, rfl⟩ := Except.mapM_cons_eq_ok.mp hlast
  obtain ⟨first', rest', hfirst', hrest', rfl⟩ := (Except.mapM_middle_eq_ok hown).mp hops₂
  cases ht.symm.trans hop
  cases hfirst.symm.trans hfirst'
  cases hrest.symm.trans hrest'
  rw [Operation.meaning_eq hsound₁ hcounted hread₁ hl,
    Operation.meaning_eq hsound₂ hcounted hread₂ (hl.trans hsize),
    Operation.runAll_splice hsound₁ (sound_operations hdict hown) hcounted hf hread₁
      (Nat.le_of_eq hl.symm)]

end Inline

variable {S : Session Machine.target} {entries : List Entry}

/-- An inline word is its body. A definition with the word in it is accepted just if the definition
with the body in the place of the word is, and both are words of the same signature whose functions
answer and print the same. -/
theorem define_inlined (h : @History Machine.target {} S entries) {known : Dictionary}
    {name : String} {body : List Token} (hentry : .defined known name body ∈ entries)
    (hbody : ∀ t ∈ body, (named S.dictionary t).map Prod.fst = (named known t).map Prod.fst)
    {t : Token} {w : Word} (ht : named S.dictionary t = some (known.size, w))
    (hinline : w.isInline = true) (caller : String) (before after : List Token) :
    ((∃ S₁, define caller (before ++ t :: after) none S = .ok () S₁) ↔
      ∃ S₂, define caller (before ++ body ++ after) none S = .ok () S₂) ∧
    ∀ S₁ S₂, define caller (before ++ t :: after) none S = .ok () S₁ →
      define caller (before ++ body ++ after) none S = .ok () S₂ →
      ∃ effect r, S₁.signature caller = .ok effect ∧ S₂.signature caller = .ok effect ∧
        S₁.functions[S.dictionary.size]? = some (some r) ∧
        S₂.functions[S.dictionary.size]? = some (some r) ∧
        ∀ arguments, S₁.target.observe r arguments = S₂.target.observe r arguments := by
  have hlinked := h.reachable.linked
  have hdict := hlinked.sound
  obtain ⟨f, own, hown, hf, hsplice⟩ := h.resolves_inline hentry hbody ht hinline
  constructor
  · rw [define_iff hlinked, define_iff hlinked]
    constructor
    · rintro ⟨draft, hread⟩
      exact ((readBody_inline hdict hown hf hsplice).mp ⟨draft, hread, rfl⟩).imp fun _ => And.left
    · rintro ⟨draft, hread⟩
      exact ((readBody_inline hdict hown hf hsplice).mpr ⟨draft, hread, rfl⟩).imp fun _ => And.left
  · intro S₁ S₂ h₁ h₂
    obtain ⟨draft₁, accepted₁⟩ := accepted_of_define hlinked h₁
    obtain ⟨draft₂, accepted₂⟩ := accepted_of_define hlinked h₂
    obtain ⟨draft, hread, hflow⟩ :=
      (readBody_inline hdict hown hf hsplice).mp ⟨draft₁, accepted₁.read, rfl⟩
    cases hread.symm.trans accepted₂.read
    have hsize : draft₁.arguments.size = draft₂.arguments.size := by
      rw [← draft₁.length_takes, ← draft₂.length_takes, hflow]
    refine accepted₁.indistinct accepted₂ hdict hflow.symm fun values hl => ?_
    exact meaning_inline hdict hown hf hsplice (Machine.counted_invoke _ _) accepted₁.read
      accepted₂.read hsize hl caller _ _

def pairText : String := ": pair over over ; inline"

def pairing : Session Machine.target := ofText pairText

def pairBody : List Token := [8, 13].map fun column =>
  { text := "over", literal := none, place := ⟨1, column⟩ }

theorem define_inlined_pair :
    let before : List Token := [{ text := "1", literal := some (.int 1), place := {} }]
    let after := ["+", "*"].map wordToken
    ∃ S₁ S₂ effect r, define "caller" (before ++ wordToken "pair" :: after) none pairing = .ok () S₁ ∧
      define "caller" (before ++ pairBody ++ after) none pairing = .ok () S₂ ∧
      S₁.signature "caller" = .ok effect ∧ S₂.signature "caller" = .ok effect ∧
      S₁.functions[24]? = some (some r) ∧ S₂.functions[24]? = some (some r) ∧
      ∀ arguments, S₁.target.observe r arguments = S₂.target.observe r arguments := by
  intro before after
  have hconfig : @ofConfig Machine.target {} {} = .ok (ofTarget {}) := rfl
  have hhistory : @History Machine.target {} pairing _ := .run _ (.start hconfig)
  have hentry : .defined .withBuiltins "pair" pairBody ∈
      [] ++ completedFrom (Cursor.ofText pairText) (ofTarget (T := Machine.target) {}) := by
    decide +kernel
  have hbody : ∀ t ∈ pairBody, (named pairing.dictionary t).map Prod.fst =
      (named Dictionary.withBuiltins t).map Prod.fst := by decide +kernel
  have hnamed : (named pairing.dictionary (wordToken "pair")).map
      (fun x => (x.1, x.2.isInline)) = some (Dictionary.withBuiltins.size, true) := by decide +kernel
  obtain ⟨⟨id, w⟩, hw, hpair⟩ := Option.map_eq_some_iff.mp hnamed
  obtain ⟨rfl, hinline⟩ := Prod.mk.inj hpair
  have hsize : pairing.dictionary.size = 24 := by decide +kernel
  have hdefine : define "caller" (before ++ wordToken "pair" :: after) none pairing = .ok () _ :=
    Action.attempt_eq_ok.mp (by decide +kernel)
  have hinlined := define_inlined hhistory hentry hbody hw hinline "caller" before after
  obtain ⟨S₂, hdefine₂⟩ := hinlined.1.mp ⟨_, hdefine⟩
  obtain ⟨effect, r, hrest⟩ := hinlined.2 _ S₂ hdefine hdefine₂
  rw [hsize] at hrest
  exact ⟨_, S₂, effect, r, hdefine, hdefine₂, hrest⟩

end StackEffect.Session
