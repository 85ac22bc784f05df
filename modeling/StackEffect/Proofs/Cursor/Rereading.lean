import StackEffect.Definition
import StackEffect.Proofs.Cursor.Later
import StackEffect.Proofs.Cursor.Lexing
import StackEffect.Proofs.Phrase

/-!
Texts of tokens that are read again. Between blanks the text of a token is read as this token, but
for a string that starts with a blank: its first blank is taken for the one that sets the string off
(`text_reread_iff`). So the text of a definition is read as a definition of the same tokens, except
that such strings have lost a blank (`reads_text`).
-/
namespace StackEffect
open Cursor

/-! ### Tokens -/

namespace Token

def Lexed (t : Token) : Prop := ∃ chars rest, Spells chars t rest

/-- What the text of a token is read as. -/
def reread (t : Token) : Token :=
  match t.literal with
  | some (.str value) =>
    let value := String.ofList (stringBody value.toList)
    { t with text := "\"" ++ value ++ "\"", literal := some (.str value) }
  | _ => t

end Token

def startsBlank (text : String) : Bool :=
  match text.toList with
  | '"' :: c :: _ => isBlank c
  | _ => false

theorem number?_ne_str (word : List Char) (value : String) : number? word ≠ some (.str value) := by
  unfold number?
  cases integer? word with
  | some n => simp
  | none => cases float? word <;> simp

section Token
variable {t : Token} {c after : Cursor} {rest gap : List Char}

theorem Cursor.lexed_of_next (h : c.next = .ok (some (t, after))) : t.Lexed := by
  have hstop := stop_next c
  rw [h] at hstop
  cases hstop with
  | token _ _ hspells _ => exact ⟨_, _, hspells⟩

theorem Token.isWord_reread (t : Token) (text : String) : t.reread.isWord text = t.isWord text := by
  unfold reread
  split
  · rename_i h
    simp [isWord, h]
  · rfl

theorem Token.reread_word (word : List Char) (place : Place) :
    Token.reread ⟨String.ofList word, number? word, place⟩ =
      ⟨String.ofList word, number? word, place⟩ := by
  unfold reread
  split
  · exact absurd ‹_› (number?_ne_str _ _)
  · rfl

theorem Token.Lexed.spells (h : t.Lexed) (hrest : AtBreak rest) :
    Spells t.text.toList t.reread rest := by
  obtain ⟨chars, rest', hspells⟩ := h
  cases hspells with
  | @word _ _ place hne hink _ hquote hopens =>
    rw [reread_word, String.toList_ofList]
    exact .word hne hink hrest hquote hopens
  | @string delimiter value _ place hoff hfree =>
    -- The blank that has set the string off is not in the text; one that the value starts with does it.
    obtain ⟨delimiter', hvalue, hoff'⟩ := exists_setsOff value
    have hfree' : '"' ∉ stringBody value := fun hmem => hfree ((stringBody_suffix value).mem hmem)
    have htext : ("\"" ++ String.ofList value ++ "\"").toList =
        '"' :: (delimiter' ++ (stringBody value ++ ['"'])) := by
      rw [← List.append_assoc, ← hvalue]
      simp
    rw [htext]
    simp only [Token.reread, String.toList_ofList]
    exact .string hoff' hfree'

/-- Only a string that starts with a blank is read as another token. -/
theorem Token.Lexed.reread_cases (h : t.Lexed) :
    startsBlank t.text = false ∧ t.reread = t ∨
      startsBlank t.text = true ∧ t.reread.text ≠ t.text := by
  obtain ⟨chars, rest', hspells⟩ := h
  cases hspells with
  | @word _ _ place hne hink _ hquote hopens =>
    refine .inl ⟨?_, reread_word chars place⟩
    obtain ⟨c, word, rfl⟩ := List.exists_cons_of_ne_nil hne
    have hc : c ≠ '"' := fun hc => hquote (congrArg some hc)
    simp [startsBlank, hc]
  | @string delimiter value _ place hoff hfree =>
    cases value with
    | nil => exact .inl ⟨by simp [startsBlank, isBlank_quote], rfl⟩
    | cons c value =>
      have hstarts : startsBlank ("\"" ++ String.ofList (c :: value) ++ "\"") = isBlank c := by
        simp [startsBlank]
      rw [hstarts]
      cases hc : isBlank c with
      | false => exact .inl ⟨rfl, by simp [Token.reread, stringBody, hc]⟩
      | true =>
        refine .inr ⟨rfl, fun heq => ?_⟩
        have hlength := congrArg (fun text : String => text.toList.length) heq
        simp [Token.reread, stringBody, hc] at hlength

theorem Token.Lexed.text_reread_iff (h : t.Lexed) :
    t.reread.text = t.text ↔ startsBlank t.text = false := by
  rcases h.reread_cases with ⟨hstarts, hsame⟩ | ⟨hstarts, hne⟩
  · simp [hstarts, hsame]
  · simp [hstarts, hne]

theorem Token.Lexed.reread_eq_self (h : t.Lexed) (hstarts : startsBlank t.text = false) :
    t.reread = t := by
  rcases h.reread_cases with ⟨-, hsame⟩ | ⟨hblank, -⟩
  · exact hsame
  · cases hstarts.symm.trans hblank

end Token

/-! ### Bodies -/

/-- A token that can stand in a body. -/
structure Token.InBody (t : Token) : Prop where
  lexed : t.Lexed
  goesOn : t.isWord ";" = false
  opens : (t.isWord ":" || t.isWord "extern") = false

def setOff (texts : List String) : List Char := texts.flatMap fun text => ' ' :: text.toList

theorem toList_spaced_cons (text : String) (texts : List String) :
    (spaced (text :: texts)).toList = text.toList ++ setOff texts := by
  unfold spaced
  rw [String.toList_intercalate]
  induction texts generalizing text with
  | nil => simp [setOff]
  | cons next texts ih =>
    rw [List.map_cons, List.map_cons, List.intercalate_cons_cons, ← List.map_cons, ih,
      List.append_assoc]
    rfl

theorem atBreak_setOff (texts : List String) : AtBreak (setOff texts) := by
  cases texts with
  | nil => simp [setOff, AtBreak]
  | cons text texts => exact .cons (by decide) _

namespace Cursor
variable {c after last : Cursor} {name : String} {gap rest : List Char}

theorem inBody_of_bodyTokens {body : List Token} {r : Except CompileError Cursor}
    (h : c.bodyTokens name = (body, r)) : ∀ t ∈ body, t.InBody := by
  fun_induction bodyTokens name c generalizing body r with
  | case1 => simp_all
  | case2 => simp_all
  | case3 => simp_all
  | case4 => simp_all
  | case5 c t after hn ht ht' more r' hrest ih =>
    cases h
    rintro t' (_ | ⟨_, ht'⟩)
    · exact ⟨lexed_of_next hn, Bool.eq_false_iff.mpr ht, Bool.eq_false_iff.mpr ht'⟩
    · exact ih hrest t' ht'

theorem next_of_text {t : Token} (h : t.Lexed) (hgap : Gap gap (t.text.toList ++ rest))
    (hrest : AtBreak rest) (hc : c.rest = gap ++ (t.text.toList ++ rest)) :
    ∃ t' after, c.next = .ok (some (t', after)) ∧ t.reread.Alike t' ∧ after.rest = rest :=
  ⟨_, _, (Stop.token hc hgap ((h.spells hrest).move (c.place.afterAll gap)) rfl).next_eq,
    ⟨rfl, rfl⟩, rfl⟩

theorem bodyTokens_of_next {c' : Cursor} (h : c.next = c'.next) (name : String) :
    c.bodyTokens name = c'.bodyTokens name := by
  rw [bodyTokens_eq, bodyTokens_eq, h]

theorem lexed_mark {mark : Char} (h : mark = ':' ∨ mark = ';') :
    Token.Lexed ⟨String.ofList [mark], none, {}⟩ := by
  rcases h with rfl | rfl
  · exact ⟨_, [], .word (by simp) (List.all_eq_true.mp rfl) (by simp [AtBreak]) (by decide) rfl⟩
  · exact ⟨_, [], .word (by simp) (List.all_eq_true.mp rfl) (by simp [AtBreak]) (by decide) rfl⟩

theorem isWord_of_alike {t t' : Token} (h : t.reread.Alike t') (text : String) :
    t'.isWord text = t.isWord text := by
  rw [← t.isWord_reread, Token.isWord, Token.isWord, h.1, h.2]

theorem next_of_setOff {t : Token} {texts : List String} (h : t.Lexed)
    (hc : c.rest = setOff (t.text :: texts)) : ∃ t' after, c.next = .ok (some (t', after)) ∧
      t.reread.Alike t' ∧ after.rest = setOff texts :=
  next_of_text h (.blank rfl (.nil _)) (atBreak_setOff texts) hc

theorem bodyTokens_of_texts {body : List Token} (hbody : ∀ t ∈ body, t.InBody) (name : String)
    (hc : c.rest = setOff (body.map Token.text ++ [";"])) : ∃ body' last,
      c.bodyTokens name = (body', .ok last) ∧ last.rest = [] ∧
        List.Forall₂ (fun t t' => t.reread.Alike t') body body' := by
  induction body generalizing c with
  | nil =>
    obtain ⟨t', last, hnext, halike, hlast⟩ := next_of_setOff (lexed_mark (.inr rfl)) hc
    refine ⟨[], last, ?_, hlast, .nil⟩
    rw [bodyTokens_eq, hnext]
    exact if_pos (isWord_of_alike halike ";")
  | cons t body ih =>
    have ht := hbody t List.mem_cons_self
    obtain ⟨t', after, hnext, halike, hafter⟩ := next_of_setOff ht.lexed hc
    obtain ⟨body', last, hrest, hlast, hall⟩ :=
      ih (fun t ht => hbody t (List.mem_cons_of_mem _ ht)) hafter
    refine ⟨t' :: body', last, ?_, hlast, .cons halike hall⟩
    rw [bodyTokens_eq, hnext]
    simp only [isWord_of_alike halike, ht.goesOn, ht.opens, hrest, Bool.false_eq_true, if_false]

end Cursor

/-! ### Definitions -/

namespace Signature

theorem toList_codes (types : List ValueType) :
    (codes types).toList = types.flatMap fun type => ' ' :: type.code.toList := by
  unfold codes
  induction types with
  | nil => rfl
  | cons type types ih => simp [ih]

theorem bracket_not_mem_codes (types : List ValueType) : ')' ∉ (codes types).toList := by
  rw [toList_codes]
  intro h
  obtain ⟨type, -, hc⟩ := List.mem_flatMap.mp h
  cases type <;> revert hc <;> decide

theorem atBreak_codes (types : List ValueType) : AtBreak (codes types).toList := by
  rw [toList_codes]
  cases types with
  | nil => simp [AtBreak]
  | cons type types => exact .cons (by decide) _

/-- Where blanks are around it, a signature is a comment. -/
theorem gap_text (s : Signature) {rest : List Char} (hrest : AtBreak rest) :
    Gap (' ' :: s.text.toList) rest := by
  have htext : s.text.toList = ['('] ++ (((codes s.inputs).toList ++ (" --".toList ++
      ((codes s.outputs).toList ++ [' ']))) ++ ([')'] ++ [])) := by
    simp [text]
  rw [htext]
  refine .blank rfl (.enclosed (by decide) ⟨?_, ?_, ?_, ?_⟩ hrest (.nil rest))
  · simp
  · exact (atBreak_codes s.inputs).append fun _ => .cons (by decide) _
  · intro c hc
    rw [← List.append_assoc, ← List.append_assoc, List.getLast?_concat] at hc
    cases hc
    decide
  · intro hmem
    have hbracket := mem_of_mem_blankSeparated hmem (List.mem_singleton_self _)
    simp [bracket_not_mem_codes] at hbracket

end Signature

/-- The text of a definition is read as a definition of the tokens that those of its name and body are
read as. -/
theorem Definition.reads_text {d : Definition} {name : Token} {body : List Token} {s : Signature}
    (hname : d.name = name.text) (hsource : d.source = body.map Token.text)
    (hs : d.signature = .ok s) (hlexed : name.Lexed) (hbody : ∀ t ∈ body, t.InBody)
    (sees : Token → Bool) : ∃ body' last,
      Reads sees (ofText d.text) (.definition name.reread.text body' none) last ∧ last.rest = [] ∧
        List.Forall₂ (fun t t' => t.reread.Alike t') body body' := by
  have htext : d.text.toList =
      [] ++ (":".toList ++ setOff (d.name :: s.text :: (d.source ++ [";"]))) := by
    unfold Definition.text
    rw [hs]
    exact toList_spaced_cons ..
  obtain ⟨colon, start, hfirst, hcolon, hstart⟩ :=
    next_of_text (c := ofText d.text) (lexed_mark (.inl rfl)) (.nil _) (atBreak_setOff _) htext
  rw [hname] at hstart
  obtain ⟨name', after, hnext, halike, hafter⟩ := next_of_setOff hlexed hstart
  -- The signature is no token: what is next behind the name is next behind the signature.
  have hcomment : after.next = (after.advance (' ' :: s.text.toList)
      (setOff (body.map Token.text ++ [";"]))).next := by
    rw [hsource] at hafter
    exact next_of_gap (s.gap_text (atBreak_setOff _)) hafter
  obtain ⟨body', last, htokens, hlast, hall⟩ := bodyTokens_of_texts (c := after.advance
    (' ' :: s.text.toList) (setOff (body.map Token.text ++ [";"]))) hbody name'.text rfl
  refine ⟨body', last, ?_, hlast, hall⟩
  rw [halike.1]
  exact .definition hfirst (isWord_of_alike hcolon ":") hnext
    ((bodyTokens_of_next hcomment _).trans htokens)

end StackEffect
