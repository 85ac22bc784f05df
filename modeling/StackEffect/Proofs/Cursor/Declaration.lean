import StackEffect.Proofs.Cursor.Gap
import StackEffect.Proofs.Session.Reachable

/-!
The grammar of declarations. A declaration is read word by word; the words that a text starts with can
be taken, and reading then stands just behind the last of them (`exists_takes`, `Takes.behind`). What is
read as a declaration are the words of its grammar and no others (`declarationPhrase_of_takes`,
`takes_of_declarationPhrase`).
-/
namespace StackEffect

/-! ### Words taken one by one -/

namespace Cursor
variable {c rest : Cursor} {words : List String}

/-- These words come next, taken as they come, and `rest` is what follows them. -/
inductive Takes : Cursor → List String → Cursor → Prop
  | nil (c : Cursor) : Takes c [] c
  | cons {c after rest : Cursor} {t : Token} {words : List String} :
      c.nextWord = some (t, after) → Takes after words rest → Takes c (t.text :: words) rest

/-- The place just behind words of a text: what has been seen ends with the last of them, they are
counted, and the words that follow are those of the rest. -/
structure Behind (c : Cursor) (words : List String) (seen : List Char) (rest : Cursor) : Prop where
  split : c.rest = seen ++ rest.rest
  seen_words : blankSeparated seen = words.map String.toList
  rest_words : blankSeparated c.rest = words.map String.toList ++ blankSeparated rest.rest
  ends_ink : ∀ x ∈ seen.getLast?, isInk x = true
  place : rest.place = c.place.afterAll seen
  consumed : rest.consumed = c.consumed + words.length

theorem takes_cons {word : String} : c.Takes (word :: words) rest ↔
    ∃ t after, c.nextWord = some (t, after) ∧ t.text = word ∧ after.Takes words rest := by
  constructor
  · rintro (_ | ⟨hn, h⟩)
    exact ⟨_, _, hn, rfl, h⟩
  · rintro ⟨t, after, hn, rfl, h⟩
    exact .cons hn h

theorem exists_firstWord_of_nextWord {t : Token} {after : Cursor}
    (h : c.nextWord = some (t, after)) : ∃ blanks word,
      FirstWord c.rest blanks word after.rest ∧ t.text.toList = word ∧
        after.place = c.place.afterAll (blanks ++ word) ∧ after.consumed = c.consumed + 1 := by
  obtain ⟨⟨t', raw⟩, hr, hcount⟩ := Option.map_eq_some_iff.mp h
  cases hcount
  obtain ⟨blanks, word, hfirst, rfl, hraw⟩ := exists_firstWord hr
  rw [hraw] at hfirst ⊢
  exact ⟨blanks, word, hfirst, String.toList_ofList, rfl, rfl⟩

theorem exists_nextWord {cs blanks word : List Char} (h : FirstWord c.rest blanks word cs) :
    ∃ t after, c.nextWord = some (t, after) ∧ t.text.toList = word ∧ after.rest = cs := by
  refine ⟨_, _, congrArg (Option.map _) (rawWord_of_firstWord h), String.toList_ofList, rfl⟩

theorem exists_takes :
    (∃ rest, c.Takes words rest) ↔ words.map String.toList <+: blankSeparated c.rest := by
  induction words generalizing c with
  | nil => exact ⟨fun _ => List.nil_prefix, fun _ => ⟨c, .nil c⟩⟩
  | cons word words ih =>
    constructor
    · rintro ⟨rest, _ | ⟨hn, h⟩⟩
      obtain ⟨blanks, cs, hfirst, rfl, -, -⟩ := exists_firstWord_of_nextWord hn
      rw [hfirst.blankSeparated_eq, List.map_cons]
      exact List.cons_prefix_cons.mpr ⟨rfl, ih.mp ⟨rest, h⟩⟩
    · intro h
      rcases blank_or_firstWord c.rest with hblank | ⟨blanks, cs, tail, hfirst⟩
      · rw [blankSeparated_of_blank hblank] at h
        simp at h
      · rw [hfirst.blankSeparated_eq, List.map_cons] at h
        obtain ⟨hword, hwords⟩ := List.cons_prefix_cons.mp h
        obtain ⟨t, after, hn, ht, hafter⟩ := exists_nextWord hfirst
        obtain rfl : t.text = word := String.toList_injective (ht.trans hword.symm)
        obtain ⟨rest, hrest⟩ := ih.mpr (hafter ▸ hwords)
        exact ⟨rest, .cons hn hrest⟩

theorem Takes.behind (h : c.Takes words rest) : ∃ seen, c.Behind words seen rest := by
  induction h with
  | nil c => exact ⟨[], rfl, blankSeparated_of_blank nofun, rfl, nofun, rfl, rfl⟩
  | @cons c after rest t words hn _ ih =>
    obtain ⟨seen, hseen⟩ := ih
    obtain ⟨blanks, word, hfirst, rfl, hplace, hconsumed⟩ := exists_firstWord_of_nextWord hn
    have hfront : FirstWord (blanks ++ (t.text.toList ++ seen)) blanks t.text.toList seen :=
      ⟨rfl, hfirst.blank, hfirst.nonempty, hfirst.ink, (hseen.split ▸ hfirst.stops).of_append⟩
    refine ⟨blanks ++ (t.text.toList ++ seen), ?_, ?_, ?_, ?_, ?_, ?_⟩
    · rw [hfirst.split, hseen.split, List.append_assoc, List.append_assoc]
    · rw [hfront.blankSeparated_eq, hseen.seen_words, List.map_cons]
    · rw [hfirst.blankSeparated_eq, hseen.rest_words, List.map_cons, List.cons_append]
    · intro x hx
      rw [List.getLast?_append_of_ne_nil _ (by simp [hfirst.nonempty])] at hx
      by_cases hnil : seen = []
      · rw [hnil, List.append_nil] at hx
        exact hfirst.ink x (List.mem_of_getLast? hx)
      · rw [List.getLast?_append_of_ne_nil _ hnil] at hx
        exact hseen.ends_ink x hx
    · rw [hseen.place, hplace, ← Place.afterAll_append, List.append_assoc]
    · rw [hseen.consumed, hconsumed, List.length_cons]
      omega

/-! ### Letters -/

def IsLetter (word : String) : Prop := word ≠ ")" ∧ word ≠ "--"

def letterWords (separated : Bool) (inputs outputs : List String) : List String :=
  if separated then outputs ++ [")"] else inputs ++ "--" :: (outputs ++ [")"])

theorem typeLetters_of_letter {t : Token} {after : Cursor} {separated : Bool}
    (hn : c.nextWord = some (t, after)) (ht : IsLetter t.text) : c.typeLetters separated =
      (after.typeLetters separated).map fun (inputs, outputs, rest) =>
        if separated then (inputs, t.text :: outputs, rest)
        else (t.text :: inputs, outputs, rest) := by
  rw [typeLetters_eq, hn]
  exact (if_neg ht.1).trans (if_neg ht.2)

theorem typeLetters_of_outputs {outputs : List String} (hletters : ∀ x ∈ outputs, IsLetter x)
    (h : c.Takes (letterWords true [] outputs) rest) :
    c.typeLetters true = .ok ([], outputs, rest) := by
  induction outputs generalizing c with
  | nil =>
    obtain ⟨t, after, hn, ht, ⟨⟩⟩ := takes_cons.mp h
    rw [typeLetters_eq, hn]
    exact if_pos ht
  | cons letter outputs ih =>
    cases h with
    | cons hn h =>
      rw [typeLetters_of_letter hn (hletters _ List.mem_cons_self),
        ih (fun x hx => hletters x (List.mem_cons_of_mem _ hx)) h]
      rfl

/-- The letters of a declaration are read with the marks between them. -/
theorem typeLetters_of_takes {inputs outputs : List String}
    (hin : ∀ x ∈ inputs, IsLetter x) (hout : ∀ x ∈ outputs, IsLetter x)
    (h : c.Takes (letterWords false inputs outputs) rest) :
    c.typeLetters false = .ok (inputs, outputs, rest) := by
  induction inputs generalizing c with
  | nil =>
    obtain ⟨t, after, hn, ht, h⟩ := takes_cons.mp h
    rw [typeLetters_eq, hn]
    refine (if_neg (by simp [ht])).trans ((if_pos ht).trans ?_)
    exact typeLetters_of_outputs hout h
  | cons letter inputs ih =>
    cases h with
    | cons hn h =>
      rw [typeLetters_of_letter hn (hin _ List.mem_cons_self),
        ih (fun x hx => hin x (List.mem_cons_of_mem _ hx)) h]
      rfl

theorem takes_of_typeLetters {separated : Bool} {inputs outputs : List String}
    (h : c.typeLetters separated = .ok (inputs, outputs, rest)) :
    (separated = true → inputs = []) ∧ c.Takes (letterWords separated inputs outputs) rest := by
  fun_induction typeLetters separated c generalizing inputs outputs with
  | case1 => cases h
  | case2 c t after hn ht =>
    cases h
    exact ⟨fun _ => rfl, takes_cons.mpr ⟨t, _, hn, ht, .nil _⟩⟩
  | case3 => cases h
  | case4 => cases h
  | case5 separated c t after hn ht ht' hs ih =>
    obtain ⟨hnone, htakes⟩ := ih h
    obtain rfl := hnone rfl
    rw [Bool.eq_false_iff.mpr hs]
    exact ⟨fun h => absurd h Bool.false_ne_true, takes_cons.mpr ⟨t, after, hn, ht', htakes⟩⟩
  | case6 separated c t after hn ht ht' ih =>
    cases hr : after.typeLetters separated with
    | error e =>
      rw [hr] at h
      cases h
    | ok read =>
      obtain ⟨inputs', outputs', rest'⟩ := read
      rw [hr] at h
      cases separated with
      | true =>
        cases h
        obtain ⟨hnone, htakes⟩ := ih hr
        exact ⟨hnone, .cons hn htakes⟩
      | false =>
        cases h
        exact ⟨fun h => absurd h Bool.false_ne_true, .cons hn (ih hr).2⟩

/-! ### Declarations -/

theorem takes_of_declarationPhrase {p : Phrase} (h : c.declarationPhrase = .ok (p, rest)) :
    ∃ name inputs outputs, p = .declaration name inputs outputs ∧
      c.Takes (name :: "(" :: letterWords false inputs outputs) rest := by
  unfold declarationPhrase at h
  split at h
  · cases h
  · rename_i name named hname
    split at h
    · cases h
    · rename_i bracket opened hbracket
      split_ifs at h with ht
      obtain ⟨⟨inputs, outputs, rest'⟩, hletters, h⟩ := Except.bind_eq_ok.mp h
      cases h
      have htakes := (takes_of_typeLetters hletters).2
      exact ⟨_, _, _, rfl, .cons hname (takes_cons.mpr ⟨_, _, hbracket, ht, htakes⟩)⟩

theorem declarationPhrase_of_takes {name : String} {inputs outputs : List String}
    (hin : ∀ x ∈ inputs, IsLetter x) (hout : ∀ x ∈ outputs, IsLetter x)
    (h : c.Takes (name :: "(" :: letterWords false inputs outputs) rest) :
    c.declarationPhrase = .ok (.declaration name inputs outputs, rest) := by
  obtain ⟨t, named, hname, rfl, hnamed⟩ := takes_cons.mp h
  obtain ⟨bracket, opened, hbracket, ht, hopened⟩ := takes_cons.mp hnamed
  rw [declarationPhrase, hname]
  dsimp only
  rw [hbracket]
  dsimp only
  rw [if_pos ht, typeLetters_of_takes hin hout hopened]
  rfl

end Cursor

/-! ### Types -/

namespace ValueType

theorem ofCode?_eq_some {text : String} {type : ValueType} :
    ofCode? text = some type ↔ type ≠ null ∧ text = type.code := by
  constructor
  · intro h
    have hcode := List.find?_some h
    have hmem := List.mem_of_find?_eq_some h
    refine ⟨?_, (of_decide_eq_true hcode).symm⟩
    rintro rfl
    simp at hmem
  · rintro ⟨h, rfl⟩
    exact ofCode?_code type h

theorem ofCodes_eq_ok {word : String} {codes : List String} {types : List ValueType} :
    ofCodes word codes = .ok types ↔ .null ∉ types ∧ codes = types.map code := by
  unfold ofCodes
  induction codes generalizing types with
  | nil =>
    constructor
    · rintro ⟨⟩
      exact ⟨List.not_mem_nil, rfl⟩
    · rintro ⟨-, h⟩
      rw [List.map_eq_nil_iff.mp h.symm]
      rfl
  | cons letter codes ih =>
    rw [Except.mapM_cons_eq_ok]
    constructor
    · rintro ⟨type, more, hletter, hmore, rfl⟩
      split at hletter
      · rename_i htype
        cases hletter
        obtain ⟨hne, rfl⟩ := ofCode?_eq_some.mp htype
        obtain ⟨hnull, rfl⟩ := ih.mp hmore
        exact ⟨List.not_mem_cons_of_ne_of_not_mem hne.symm hnull, rfl⟩
      · cases hletter
    · rintro ⟨hnull, h⟩
      obtain ⟨type, more, rfl, hletter, hmore⟩ := List.map_eq_cons_iff.mp h.symm
      rw [List.mem_cons, not_or] at hnull
      refine ⟨type, more, ?_, ih.mpr ⟨hnull.2, hmore.symm⟩, rfl⟩
      rw [← hletter, ofCode?_code type (Ne.symm hnull.1)]

end ValueType

theorem Cursor.isLetter_code (type : ValueType) : IsLetter type.code := by
  cases type <;> exact ⟨by decide, by decide⟩

def declarationWords (name : String) (signature : Signature) : List String :=
  name :: "(" :: Cursor.letterWords false (signature.inputs.map (·.code))
    (signature.outputs.map (·.code))

end StackEffect
