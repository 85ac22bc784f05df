import StackEffect.Dictionary

/-!
Look-ups. A word keeps its place for good, so that a dictionary only changes at its end: a hidden
word that is entered changes no look-up (`lookup_enter_hidden`), a visible one is found under its own
name and changes no other look-up (`lookup_enter`).
-/
namespace StackEffect

namespace Word
variable {w : Word} {f : Definition} {s : Signature} {symbol : String}

theorem isUser_iff : w.isUser = true ↔
    (∃ s symbol, w.kind = .external s symbol) ∨ ∃ f, w.kind = .compiled f := by
  unfold isUser
  cases w.kind <;> simp

theorem signature_of_compiled (hk : w.kind = .compiled f) : w.signature = f.signature := by
  rw [signature, hk]

theorem signature_of_external (hk : w.kind = .external s symbol) : w.signature = .ok s := by
  rw [signature, hk]

theorem isUser_of_signature (h : w.signature = .ok s) : w.isUser = true := by
  unfold signature at h
  unfold isUser
  cases hk : w.kind with
  | builtin b => simp [hk] at h
  | pending => simp [hk] at h
  | external declared symbol => rfl
  | compiled f => rfl

end Word

namespace Dictionary
variable {d : Dictionary} {w : Word} {id : WordId} {name : String}

theorem lt_size_of_word? (h : d.word? id = some w) : id < d.size :=
  (Array.getElem?_eq_some_iff.mp h).1

theorem word?_enter_of_some (v : Word) (h : d.word? id = some w) :
    (d.enter v).word? id = some w := by
  have hne : id ≠ d.size := Nat.ne_of_lt (lt_size_of_word? h)
  rw [word?_enter, if_neg hne, h]

theorem word?_enter_eq_some {v : Word} :
    (d.enter v).word? id = some w ↔ id = d.size ∧ w = v ∨ d.word? id = some w := by
  rw [word?_enter]
  by_cases h : id = d.size
  · have hn : d.word? d.size = none := Array.getElem?_eq_none (Nat.le_refl _)
    simp [h, hn, eq_comm]
  · simp [h]

theorem word?_modify (d : Dictionary) (i : WordId) (change : Word → Word) (id : WordId) :
    (d.modify i change).word? id = if i = id then (d.word? id).map change else d.word? id :=
  Array.getElem?_modify

/-- The dictionary with or without the mark of a word as inline. -/
def setInline (d : Dictionary) (id : WordId) (isInline : Bool) : Dictionary :=
  d.modify id fun w => { w with isInline }

theorem word?_setInline {i : WordId} {mark : Bool} (h : (d.setInline id mark).word? i = some w) :
    ∃ v, d.word? i = some v ∧ w = { v with isInline := w.isInline } ∧
      (w.isInline = true → i = id ∨ v.isInline = true) := by
  rw [setInline, word?_modify] at h
  by_cases hid : id = i
  · rw [if_pos hid] at h
    obtain ⟨v, hv, rfl⟩ := Option.map_eq_some_iff.mp h
    exact ⟨v, hv, rfl, fun _ => .inl hid.symm⟩
  · rw [if_neg hid] at h
    exact ⟨w, h, rfl, .inr⟩

theorem word?_setInline_of_some {i : WordId} (mark : Bool) (h : d.word? i = some w) :
    ∃ isInline, (d.setInline id mark).word? i = some { w with isInline } := by
  rw [setInline, word?_modify, h]
  by_cases hid : id = i
  · exact ⟨mark, if_pos hid⟩
  · exact ⟨w.isInline, if_neg hid⟩

theorem setInline_self (hw : d.word? id = some w) : d.setInline id w.isInline = d := by
  refine congrArg Dictionary.mk (Array.ext_getElem? fun i => ?_)
  rw [Array.getElem?_modify]
  by_cases h : id = i
  · subst h
    have hw' : d.words[id]? = some w := hw
    rw [if_pos rfl, hw']
    rfl
  · rw [if_neg h]

theorem word?_markInline_of_ne {i : WordId} (h : i ≠ id) : (d.markInline id).word? i = d.word? i := by
  rw [markInline, word?_modify, if_neg (Ne.symm h)]

theorem modify_enter (d : Dictionary) (w : Word) (change : Word → Word) :
    (d.enter w).modify d.size change = d.enter (change w) := by
  unfold enter modify size
  congr 1
  apply Array.ext_getElem?
  intro i
  rw [Array.getElem?_modify, Array.getElem?_push, Array.getElem?_push]
  by_cases h : i = d.words.size
  · simp [h]
  · simp [h, Ne.symm h]

theorem word?_foldl_enter {words : List (String × Builtin)}
    (h : (words.foldl (fun d x => d.enter (.builtin x.1 x.2)) d).word? id = some w) :
    d.word? id = some w ∨ ∃ x ∈ words, w = .builtin x.1 x.2 := by
  induction words generalizing d with
  | nil => exact .inl h
  | cons x words ih =>
    rcases ih h with h | ⟨y, hy, rfl⟩
    · rcases word?_enter_eq_some.mp h with ⟨-, rfl⟩ | h
      · exact .inr ⟨x, List.mem_cons_self, rfl⟩
      · exact .inl h
    · exact .inr ⟨y, List.mem_cons_of_mem x hy, rfl⟩

theorem word?_withBuiltins (h : withBuiltins.word? id = some w) :
    ∃ x ∈ builtinWords, w = .builtin x.1 x.2 := by
  rcases word?_foldl_enter h with h | h
  · simp [word?] at h
  · exact h

/-! ### The newest word with a property -/

theorem newestBelow_congr {d' : Dictionary} (p : Word → Bool) {count : Nat}
    (h : ∀ i < count, (d'.word? i).any p = (d.word? i).any p) :
    d'.newestBelow p count = d.newestBelow p count := by
  induction count with
  | zero => rfl
  | succ count ih =>
    have hcount := h count (Nat.lt_succ_self count)
    have hrest := ih fun i hi => h i (Nat.lt_succ_of_lt hi)
    simp only [newestBelow, hcount, hrest]

theorem newestBelow_eq_some {p : Word → Bool} {count : Nat}
    (h : d.newestBelow p count = some id) : ∃ w, d.word? id = some w ∧ p w = true := by
  induction count with
  | zero => contradiction
  | succ count ih =>
    simp only [newestBelow] at h
    by_cases hp : (d.word? count).any p = true
    · rw [if_pos hp] at h
      cases h
      obtain ⟨w, hw, hp⟩ := Option.any_eq_true _ _ |>.mp hp
      exact ⟨w, hw, hp⟩
    · rw [if_neg hp] at h
      exact ih h

theorem newest_enter (p : Word → Bool) : (d.enter w).newest p =
    if (!w.isHidden && p w) = true then some d.size else d.newest p := by
  have hw : (d.enter w).word? d.size = some w := by rw [word?_enter, if_pos rfl]
  have hrest : ∀ (p : Word → Bool), ∀ i < d.size,
      ((d.enter w).word? i).any p = (d.word? i).any p := by
    intro p i hi
    rw [word?_enter, if_neg (Nat.ne_of_lt hi)]
  simp only [newest, size_enter, newestBelow, hw, Option.any_some, newestBelow_congr _ (hrest _)]

theorem le_of_newestBelow {p : Word → Bool} {count i : Nat} (h : d.newestBelow p count = some id)
    (hi : i < count) (hw : d.word? i = some w) (hp : p w = true) : i ≤ id := by
  induction count with
  | zero => contradiction
  | succ count ih =>
    simp only [newestBelow] at h
    by_cases hc : (d.word? count).any p = true
    · rw [if_pos hc] at h
      cases h
      exact Nat.le_of_lt_succ hi
    · rw [if_neg hc] at h
      refine ih h (Nat.lt_of_le_of_ne (Nat.le_of_lt_succ hi) ?_)
      rintro rfl
      simp [hw, hp] at hc

theorem latestDefinition_eq_some (h : d.latestDefinition = some id) :
    ∃ w f, d.word? id = some w ∧ w.isHidden = false ∧ w.kind = .compiled f := by
  obtain ⟨w, hw, hp⟩ := newestBelow_eq_some h
  simp only [Bool.and_eq_true, Bool.not_eq_true', Option.isSome_iff_exists] at hp
  obtain ⟨hvisible, f, hf⟩ := hp
  refine ⟨w, f, hw, hvisible, ?_⟩
  unfold Word.definition? at hf
  split at hf
  · cases hf
    assumption
  · cases hf

theorem le_latestDefinition (h : d.latestDefinition = some id) {i : WordId} {f : Definition}
    (hw : d.word? i = some w) (hv : w.isHidden = false) (hk : w.kind = .compiled f) : i ≤ id :=
  le_of_newestBelow h (lt_size_of_word? hw) hw (by simp [hv, Word.definition?, hk])

/-! ### The words that users have entered -/

def places (d : Dictionary) : List (WordId × Word) := (List.range d.size).zip d.words.toList

def entered (d : Dictionary) : List (WordId × Word) := d.visible.reverse.filter fun (_, w) => w.isUser

theorem entered_eq (d : Dictionary) :
    d.entered = d.places.filter fun (_, w) => !w.isHidden && w.isUser := by
  simp [entered, visible, places, List.filter_filter, Bool.and_comm]

/-- What a session tells of its words is read off those that users have entered. -/
theorem userWords_eq (d : Dictionary) : d.userWords =
    d.entered.filterMap fun (_, w) => w.signature.toOption.map fun s => (w.name, s) := by
  simp [userWords, entered, List.filterMap_filter]

theorem getElem?_places (d : Dictionary) (i : Nat) :
    d.places[i]? = (d.word? i).map fun w => (i, w) := by
  unfold places word?
  by_cases h : i < d.words.size
  · simp [size, h]
  · simp [size, h]

theorem places_enter (d : Dictionary) (w : Word) :
    (d.enter w).places = d.places ++ [(d.size, w)] := by
  have hl : (List.range d.size).length = d.words.toList.length := by simp [size]
  unfold places
  rw [size_enter, List.range_succ, enter, Array.toList_push, List.zip_append hl]
  rfl

theorem places_modify (d : Dictionary) (id : WordId) (change : Word → Word) :
    (d.modify id change).places =
      d.places.map fun x => (x.1, if x.1 = id then change x.2 else x.2) := by
  apply List.ext_getElem?
  intro i
  rw [List.getElem?_map, getElem?_places, getElem?_places, word?_modify]
  by_cases h : id = i
  · subst h
    cases d.word? id <;> simp
  · cases d.word? i <;> simp [h, Ne.symm h]

theorem mem_places {x : WordId × Word} : x ∈ d.places ↔ d.word? x.1 = some x.2 := by
  rw [List.mem_iff_getElem?]
  simp only [getElem?_places, Option.map_eq_some_iff]
  constructor
  · rintro ⟨i, w, hw, rfl⟩
    exact hw
  · exact fun hw => ⟨x.1, x.2, hw, rfl⟩

theorem mem_entered {x : WordId × Word} :
    x ∈ d.entered ↔ d.word? x.1 = some x.2 ∧ x.2.isHidden = false ∧ x.2.isUser = true := by
  rw [entered_eq, List.mem_filter, mem_places]
  simp

theorem word?_of_mem_entered {x : WordId × Word} (h : x ∈ d.entered) :
    d.word? x.1 = some x.2 ∧ x.2.isHidden = false ∧ x.2.isUser = true := mem_entered.mp h

theorem entered_enter (d : Dictionary) (w : Word) : (d.enter w).entered =
    d.entered ++ if w.isHidden = false ∧ w.isUser = true then [(d.size, w)] else [] := by
  rw [entered_eq, entered_eq, places_enter, List.filter_append]
  by_cases h : w.isHidden = false ∧ w.isUser = true
  · simp [h]
  · rw [if_neg h]
    simpa using h

theorem entered_markInline (d : Dictionary) (id : WordId) : (d.markInline id).entered =
    d.entered.map fun x => (x.1, if x.1 = id then { x.2 with isInline := true } else x.2) := by
  rw [entered_eq, entered_eq, markInline, places_modify, List.filter_map]
  congr 2
  funext x
  by_cases h : x.1 = id
  · simp [h, Word.isUser]
  · simp [h]

/-! ### Look-ups by name -/

theorem lookup_eq_some {x : WordId × Word} (h : d.lookup name = some x) :
    d.word? x.1 = some x.2 ∧ x.2.name = name ∧ x.2.isHidden = false := by
  obtain ⟨id, hid, h⟩ := Option.bind_eq_some_iff.mp h
  obtain ⟨w, hw, h⟩ := Option.bind_eq_some_iff.mp h
  cases h
  obtain ⟨w', hw', hp⟩ := newestBelow_eq_some hid
  cases hw.symm.trans hw'
  simp only [Bool.and_eq_true, Bool.not_eq_true', decide_eq_true_eq] at hp
  exact ⟨hw, hp.2, hp.1⟩

theorem lookup_enter (d : Dictionary) (w : Word) (name : String) : (d.enter w).lookup name =
    if w.isHidden = false ∧ w.name = name then some (d.size, w) else d.lookup name := by
  unfold lookup find
  rw [newest_enter]
  by_cases h : w.isHidden = false ∧ w.name = name
  · have hw : (d.enter w).word? d.size = some w := by rw [word?_enter, if_pos rfl]
    simp [h, hw]
  · have hp : ¬ (!w.isHidden && decide (w.name = name)) = true := by simpa using h
    rw [if_neg hp, if_neg h]
    cases hid : d.newest (·.name = name) with
    | none => rfl
    | some id =>
      obtain ⟨v, hv, -⟩ := newestBelow_eq_some hid
      simp [word?_enter_of_some w hv, hv]

theorem lookup_setInline (d : Dictionary) (id : WordId) (mark : Bool) (name : String) :
    (d.setInline id mark).lookup name = (d.lookup name).map fun x =>
      (x.1, if x.1 = id then { x.2 with isInline := mark } else x.2) := by
  have hfind : (d.setInline id mark).find name = d.find name := by
    unfold find newest
    rw [setInline, size_modify]
    refine newestBelow_congr _ fun i _ => ?_
    rw [word?_modify]
    by_cases h : id = i
    · rw [if_pos h]
      cases d.word? i <;> rfl
    · rw [if_neg h]
  unfold lookup
  rw [hfind]
  cases d.find name with
  | none => rfl
  | some i =>
    have hword := word?_modify d id (fun w => { w with isInline := mark }) i
    by_cases h : id = i
    · subst h
      rw [if_pos rfl] at hword
      cases hw : d.word? id <;> simp [setInline, hword, hw]
    · rw [if_neg h] at hword
      cases hw : d.word? i <;> simp [setInline, hword, hw, Ne.symm h]

theorem lookup_enter_hidden (hw : w.isHidden = true) (name : String) :
    (d.enter w).lookup name = d.lookup name := by
  rw [lookup_enter, if_neg (by simp [hw])]

theorem find_enter_hidden (hw : w.isHidden = true) (name : String) :
    (d.enter w).find name = d.find name := by
  rw [find, newest_enter, if_neg (by simp [hw]), find]

theorem visible_enter_hidden (d : Dictionary) (hw : w.isHidden = true) :
    (d.enter w).visible = d.visible := by
  have hplaces : ∀ d : Dictionary, d.visible = d.places.reverse.filter fun (_, w) => !w.isHidden :=
    fun _ => rfl
  rw [hplaces, hplaces, places_enter]
  simp [hw]

end Dictionary
end StackEffect
