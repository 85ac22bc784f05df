import StackEffect.Proofs.Cursor.Declaration
import StackEffect.Proofs.Cursor.Rereading
import StackEffect.Proofs.Machine.Linking
import StackEffect.Proofs.Session.Halting

/-!
Declarations of external words. A text declares a word just when the words behind its `extern` start
with those of a declaration, and the word is then the one that these words spell; a text that does not
is refused and leaves all that is known as it was. The text of a signature is spelled in the same way
(`declares_iff`).
-/
namespace StackEffect

/-! ### Texts of declarations -/

def Cursor.StartsDeclaration (c : Cursor) (name : String) (signature : Signature) : Prop :=
  signature.Valued ∧ (declarationWords name signature).map String.toList <+: blankSeparated c.rest

def IsRawWord (word : String) : Prop := word.toList ≠ [] ∧ ∀ c ∈ word.toList, isInk c = true

theorem blankSeparated_setOff {words : List String} (h : ∀ w ∈ words, IsRawWord w) :
    blankSeparated (setOff words) = words.map String.toList := by
  induction words with
  | nil => exact blankSeparated_of_blank nofun
  | cons word words ih =>
    obtain ⟨hne, hink⟩ := h word List.mem_cons_self
    have hfirst : FirstWord (setOff (word :: words)) [' '] word.toList (setOff words) :=
      ⟨rfl, List.all_eq_true.mp rfl, hne, hink, atBreak_setOff words⟩
    rw [hfirst.blankSeparated_eq, ih fun w hw => h w (List.mem_cons_of_mem _ hw), List.map_cons]

theorem isRawWord_declarationWords {name : String} (hname : IsRawWord name)
    (signature : Signature) : ∀ w ∈ declarationWords name signature, IsRawWord w := by
  have hcode (type : ValueType) : IsRawWord type.code := by
    cases type <;> exact ⟨by decide, List.all_eq_true.mp rfl⟩
  intro w hw
  simp only [declarationWords, Cursor.letterWords, Bool.false_eq_true, if_false, List.mem_cons,
    List.mem_append, List.mem_map, List.not_mem_nil, or_false] at hw
  rcases hw with rfl | rfl | ⟨type, -, rfl⟩ | rfl | ⟨type, -, rfl⟩ | rfl
  · exact hname
  · exact ⟨by decide, List.all_eq_true.mp rfl⟩
  · exact hcode type
  · exact ⟨by decide, List.all_eq_true.mp rfl⟩
  · exact hcode type
  · exact ⟨by decide, List.all_eq_true.mp rfl⟩

theorem toList_declaration (name : String) (signature : Signature) :
    ("extern " ++ name ++ " " ++ signature.text).toList =
      "extern".toList ++ setOff (declarationWords name signature) := by
  have hcodes (types : List ValueType) :
      (Signature.codes types).toList = setOff (types.map (·.code)) := by
    rw [Signature.toList_codes, setOff, List.flatMap_map]
  simp [Signature.text, hcodes, declarationWords, Cursor.letterWords, setOff]

namespace Cursor
variable {c start rest : Cursor} {t : Token} {sees : Token → Bool}

theorem next_of_no_words (h : blankSeparated c.rest = []) : c.next = .ok none := by
  rcases blank_or_firstWord c.rest with hblank | ⟨blanks, word, tail, hfirst⟩
  · have hgap : Gap c.rest [] := by simpa using Gap.blanks hblank (.nil [])
    exact (Stop.ended hgap).next_eq
  · cases hfirst.blankSeparated_eq.symm.trans h

theorem next_of_declaration (name : String) (signature : Signature) :
    ∃ t start, (ofText ("extern " ++ name ++ " " ++ signature.text)).next =
        .ok (some (t, start)) ∧
      t.isWord "extern" = true ∧ start.rest = setOff (declarationWords name signature) := by
  have hlexed : Token.Lexed ⟨"extern", none, {}⟩ :=
    ⟨_, [], .word (by simp) (List.all_eq_true.mp rfl) (by simp [AtBreak]) (by decide) rfl⟩
  obtain ⟨t, start, hn, halike, hrest⟩ := next_of_text
    (c := ofText ("extern " ++ name ++ " " ++ signature.text)) hlexed (.nil _)
    (atBreak_setOff (declarationWords name signature)) (toList_declaration name signature)
  exact ⟨t, start, hn, isWord_of_alike halike "extern", hrest⟩

theorem nextPhrase_of_extern (hn : c.next = .ok (some (t, start)))
    (ht : t.isWord "extern" = true) :
    c.nextPhrase sees = (do return some (← start.declarationPhrase)) := by
  have hcolon : t.isWord ":" = false := Token.isWord_of_ne ht (by decide)
  unfold nextPhrase
  rw [hn]
  change (do return some (← start.phraseFrom sees t)) = _
  rw [phraseFrom, hcolon, ht]
  rfl

theorem declarationPhrase_of_words {name : String} {signature : Signature}
    (h : start.Takes (declarationWords name signature) rest) :
    start.declarationPhrase = .ok (.declaration name (signature.inputs.map (·.code))
      (signature.outputs.map (·.code)), rest) := by
  have hletters (types : List ValueType) : ∀ x ∈ types.map (·.code), IsLetter x := by
    rintro _ hx
    obtain ⟨type, -, rfl⟩ := List.mem_map.mp hx
    exact isLetter_code type
  exact declarationPhrase_of_takes (hletters _) (hletters _) h

end Cursor

/-! ### Sessions -/

namespace Session
variable {T : Target}

/-- Deals with the phrase at a cursor, if there is one, and answers what follows it. -/
def performNext (c : Cursor) : Action (Session T) (Option Cursor) := do
  match ← Action.ofExcept (c.nextPhrase (← get).seesNext) with
  | none => return none
  | some (phrase, rest) => do
    perform c.consumed phrase
    return some rest

/-- A run deals with the first phrase and then with the rest. -/
theorem runFrom_eq (c : Cursor) (s : Session T) : runFrom c s = (do
    match ← performNext c with
    | none => return ()
    | some rest => runFrom rest) s := by
  simp only [performNext, Action.bind_apply, Action.get_apply]
  cases hn : c.nextPhrase s.seesNext with
  | error e => exact runFrom_of_error hn
  | ok read =>
    cases read with
    | none => exact runFrom_of_end hn
    | some read =>
      rw [runFrom_of_phrase hn]
      simp only [Action.bind_apply, Action.ofExcept_ok]
      cases perform c.consumed read.1 s <;> rfl

theorem runFrom_of_performNext {c rest : Cursor} {s s' : Session T}
    (h : performNext c s = .ok (some rest) s') : runFrom c s = runFrom rest s' := by
  rw [runFrom_eq, Action.bind_of_ok h]

theorem runFrom_of_performNext_error {c : Cursor} {s s' : Session T} {e : CompileError}
    (h : performNext c s = .error e s') : runFrom c s = .error e s' := by
  rw [runFrom_eq, Action.bind_of_error h]

section Machine
variable {c start rest : Cursor} {t : Token} {s s' : Session Machine.target} {name : String}
  {signature : Signature} {e : CompileError}

/-- A session that has a declared word more, which calls a routine of its name. -/
structure Declares (s : Session Machine.target) (name : String) (signature : Signature)
    (s' : Session Machine.target) : Prop where
  dictionary : s'.dictionary = s.dictionary.enter (.external name name signature)
  functions : s'.functions = s.functions.push (some s.target.routines.size)
  routines : s'.target.routines = s.target.routines.push { name, symbol := name, signature }
  stack : s'.stack = s.stack
  meant : s'.dictionary.lookup name =
    some (s.dictionary.size, .external name name signature)
  called : s'.functions[s.dictionary.size]? = some (some s.target.routines.size)

def withDeclared (s : Session Machine.target) (name : String) (signature : Signature) :
    Session Machine.target :=
  { s.declared name name signature s.target.routines.size
      { s.target with routines := s.target.routines.push { name, symbol := name, signature } } with
    mode := .topLevel }

theorem declares_withDeclared (hsize : s.functions.size = s.dictionary.size) (name : String)
    (signature : Signature) : Declares s name signature (s.withDeclared name signature) where
  dictionary := rfl
  functions := rfl
  routines := rfl
  stack := rfl
  meant := by
    have hlookup := Dictionary.lookup_enter s.dictionary (.external name name signature) name
    exact hlookup.trans (if_pos ⟨rfl, rfl⟩)
  called := by
    change (s.functions.push (some s.target.routines.size))[s.dictionary.size]? = _
    rw [← hsize, Array.getElem?_push_size]

theorem performNext_of_words (hn : c.next = .ok (some (t, start)))
    (ht : t.isWord "extern" = true) (hv : signature.Valued)
    (h : start.Takes (declarationWords name signature) rest) (s : Session Machine.target) :
    performNext c s = .ok (some rest) (s.withDeclared name signature) := by
  have hin : ValueType.ofCodes name (signature.inputs.map (·.code)) = .ok signature.inputs :=
    ValueType.ofCodes_eq_ok.mpr ⟨hv.1, rfl⟩
  have hout : ValueType.ofCodes name (signature.outputs.map (·.code)) = .ok signature.outputs :=
    ValueType.ofCodes_eq_ok.mpr ⟨hv.2, rfl⟩
  have hperform : perform c.consumed (.declaration name (signature.inputs.map (·.code))
      (signature.outputs.map (·.code))) s = .ok () (s.withDeclared name signature) := by
    rw [perform, declare_eq, hin, hout]
    rfl
  simp only [performNext, Action.bind_apply, Action.get_apply, Cursor.nextPhrase_of_extern hn ht,
    Cursor.declarationPhrase_of_words h]
  change (do perform _ _; return some rest) s = _
  rw [Action.bind_of_ok hperform]
  rfl

theorem takes_of_performNext (hn : c.next = .ok (some (t, start)))
    (ht : t.isWord "extern" = true) {read : Option Cursor} (h : performNext c s = .ok read s') :
    ∃ name signature rest, signature.Valued ∧
      start.Takes (declarationWords name signature) rest := by
  unfold performNext at h
  obtain ⟨_, _, ⟨⟩, h⟩ := Action.bind_eq_ok.mp h
  obtain ⟨read, s₁, hread, h⟩ := Action.bind_eq_ok.mp h
  obtain ⟨hwords, rfl⟩ := Action.ofExcept_eq_ok.mp hread
  rw [Cursor.nextPhrase_of_extern hn ht] at hwords
  obtain ⟨⟨phrase, rest⟩, hphrase, hread⟩ := Except.bind_eq_ok.mp hwords
  cases hread
  obtain ⟨name, inputs, outputs, rfl, htakes⟩ := Cursor.takes_of_declarationPhrase hphrase
  obtain ⟨_, s₂, hdeclare, -⟩ := Action.bind_eq_ok.mp h
  change declare name inputs outputs _ = _ at hdeclare
  rw [declare_eq] at hdeclare
  split at hdeclare
  · cases hdeclare
  · cases hdeclare
  · rename_i i o hin hout
    obtain ⟨hi, rfl⟩ := ValueType.ofCodes_eq_ok.mp hin
    obtain ⟨ho, rfl⟩ := ValueType.ofCodes_eq_ok.mp hout
    exact ⟨name, ⟨i, o⟩, rest, ⟨hi, ho⟩, htakes⟩

theorem performNext_error (hn : c.next = .ok (some (t, start)))
    (ht : t.isWord "extern" = true) (h : performNext c s = .error e s') :
    (∃ word fault, e = .arity word fault) ∧ ∃ mode, s' = { s with mode } := by
  unfold performNext at h
  rcases Action.bind_eq_error.mp h with h | ⟨_, _, ⟨⟩, h⟩
  · cases h
  rcases Action.bind_eq_error.mp h with h | ⟨read, s₁, hread, h⟩
  · obtain ⟨hphrase, rfl⟩ := Action.ofExcept_eq_error.mp h
    rw [Cursor.nextPhrase_of_extern hn ht] at hphrase
    rcases Except.bind_eq_error.mp hphrase with hphrase | ⟨_, -, hphrase⟩
    · obtain ⟨fault, rfl⟩ := Cursor.declarationPhrase_error hphrase
      exact ⟨⟨_, _, rfl⟩, s.mode, rfl⟩
    · cases hphrase
  obtain ⟨hwords, rfl⟩ := Action.ofExcept_eq_ok.mp hread
  rw [Cursor.nextPhrase_of_extern hn ht] at hwords
  obtain ⟨⟨phrase, rest⟩, hphrase, hread⟩ := Except.bind_eq_ok.mp hwords
  cases hread
  obtain ⟨name, inputs, outputs, rfl, -⟩ := Cursor.takes_of_declarationPhrase hphrase
  rcases Action.bind_eq_error.mp h with hdeclare | ⟨_, _, -, h⟩
  · obtain ⟨target, rfl, ⟨⟨code, rfl⟩, rfl⟩ | ⟨signature, hrefused⟩⟩ := declare_eq_error hdeclare
    · exact ⟨⟨_, _, rfl⟩, .definingExternal, rfl⟩
    · cases hrefused
  · cases h

/-- The words of a declaration declare what they spell, whatever comes behind them. -/
theorem exists_performNext (hsize : s.functions.size = s.dictionary.size)
    (hn : c.next = .ok (some (t, start))) (ht : t.isWord "extern" = true)
    (h : start.StartsDeclaration name signature) : ∃ seen rest s',
      performNext c s = .ok (some rest) s' ∧
        start.Behind (declarationWords name signature) seen rest ∧
        Declares s name signature s' := by
  obtain ⟨rest, htakes⟩ := Cursor.exists_takes.mpr h.2
  obtain ⟨seen, hbehind⟩ := htakes.behind
  exact ⟨seen, rest, _, performNext_of_words hn ht h.1 htakes s, hbehind,
    declares_withDeclared hsize name signature⟩

/-- The text of a signature declares the signature, and nothing is left to be read behind it. -/
theorem exists_run_declaration (hsize : s.functions.size = s.dictionary.size)
    (hname : IsRawWord name) (hv : signature.Valued) :
    ∃ s', run ("extern " ++ name ++ " " ++ signature.text) s = .ok () s' ∧
      Declares s name signature s' := by
  obtain ⟨t, start, hn, ht, hstart⟩ := Cursor.next_of_declaration name signature
  have hwords : blankSeparated start.rest = (declarationWords name signature).map String.toList := by
    rw [hstart]
    exact blankSeparated_setOff (isRawWord_declarationWords hname signature)
  obtain ⟨seen, rest, s', hperform, hbehind, hdeclares⟩ :=
    exists_performNext hsize hn ht ⟨hv, [], by rw [List.append_nil, hwords]⟩
  have hrest : blankSeparated rest.rest = [] :=
    List.self_eq_append_right.mp (hwords.symm.trans hbehind.rest_words)
  have hend : rest.nextPhrase s'.seesNext = .ok none := by
    rw [Cursor.nextPhrase, Cursor.next_of_no_words hrest]
    rfl
  refine ⟨s'.takeOver, ?_, hdeclares.dictionary, hdeclares.functions, hdeclares.routines,
    hdeclares.stack, hdeclares.meant, hdeclares.called⟩
  rw [run, runFrom_of_performNext hperform, runFrom_of_end hend]

/-- A text starts with a declaration just when the words behind its `extern` do. What is declared is
what they spell, and reading goes on just behind the closing bracket; a text that declares nothing ends
there, with a complaint about its words or its letters, and leaves words, functions and routines as they
were. A signature that has a letter for each of its types is read back from its text. -/
theorem declares_iff (hs : Reachable ({} : Machine) s) :
    (∀ {text : String} {t : Token} {start : Cursor},
      (Cursor.ofText text).next = .ok (some (t, start)) → t.isWord "extern" = true →
      ((∃ rest s', performNext (.ofText text) s = .ok (some rest) s') ↔
        ∃ name signature, start.StartsDeclaration name signature) ∧
      (∀ name signature, start.StartsDeclaration name signature →
        ∃ seen rest s', performNext (.ofText text) s = .ok (some rest) s' ∧
          start.Behind (declarationWords name signature) seen rest ∧
          Declares s name signature s' ∧
          run text s = match runFrom rest s' with
            | .ok _ s'' => .ok () s''.takeOver
            | .error e s'' => .error e s''.reset.takeOver) ∧
      ((∀ name signature, ¬start.StartsDeclaration name signature) →
        ∃ word fault s', run text s = .error (.arity word fault) s' ∧
          s'.dictionary = s.dictionary ∧ s'.functions = s.functions ∧
          s'.target.routines = s.target.routines)) ∧
    ∀ name signature, IsRawWord name → signature.Valued →
      ∃ s', run ("extern " ++ name ++ " " ++ signature.text) s = .ok () s' ∧
        Declares s name signature s' := by
  have hsize : s.functions.size = s.dictionary.size := hs.linked.size
  constructor
  · intro text t start hn ht
    refine ⟨⟨?_, ?_⟩, ?_, ?_⟩
    · rintro ⟨rest, s', h⟩
      obtain ⟨name, signature, rest, hv, htakes⟩ := takes_of_performNext hn ht h
      exact ⟨name, signature, hv, Cursor.exists_takes.mp ⟨rest, htakes⟩⟩
    · rintro ⟨name, signature, h⟩
      obtain ⟨seen, rest, s', hperform, -⟩ := exists_performNext hsize hn ht h
      exact ⟨rest, s', hperform⟩
    · intro name signature h
      obtain ⟨seen, rest, s', hperform, hbehind, hdeclares⟩ := exists_performNext hsize hn ht h
      refine ⟨seen, rest, s', hperform, hbehind, hdeclares, ?_⟩
      rw [run, runFrom_of_performNext hperform]
      cases runFrom rest s' <;> rfl
    · intro hnone
      cases hperform : performNext (.ofText text) s with
      | ok read s' =>
        obtain ⟨name, signature, rest, hv, htakes⟩ := takes_of_performNext hn ht hperform
        exact absurd ⟨hv, Cursor.exists_takes.mp ⟨rest, htakes⟩⟩ (hnone name signature)
      | error e s' =>
        obtain ⟨⟨word, fault, rfl⟩, mode, rfl⟩ := performNext_error hn ht hperform
        refine ⟨word, fault, reset { s with mode } |>.takeOver, ?_, rfl, rfl, rfl⟩
        rw [run, runFrom_of_performNext_error hperform]
  · intro name signature hname hv
    exact exists_run_declaration hsize hname hv

def markText : String := "extern -- ( i ? -- s ) -- )"

def lackText : String := "extern lack ( * -- )"

theorem declares_iff_marks :
    let s := ofText ": sq dup * ;"
    (∃ rest s', performNext (.ofText markText) s = .ok (some rest) s' ∧
      blankSeparated rest.rest = [['-', '-'], [')']] ∧ rest.consumed = 8 ∧
      Declares s "--" ⟨[.int32, .any], [.string]⟩ s') ∧
    (∃ word fault s', run lackText s = .error (.arity word fault) s' ∧
      s'.dictionary = s.dictionary) ∧
    ∃ s', run "extern ) ( -- i f )" s = .ok () s' ∧ Declares s ")" ⟨[], [.int32, .float]⟩ s' := by
  intro s
  have hs : Reachable ({} : Machine) s := reachable_ofText _
  have hmark : (Cursor.ofText markText).next = .ok (some (⟨"extern", none, {}⟩,
      ⟨" -- ( i ? -- s ) -- )".toList, { line := 1, column := 7 }, 1⟩)) := by decide +kernel
  have hlack : (Cursor.ofText lackText).next = .ok (some (⟨"extern", none, {}⟩,
      ⟨" lack ( * -- )".toList, { line := 1, column := 7 }, 1⟩)) := by decide +kernel
  have hfails : ((performNext (.ofText lackText)).attempt s).1 =
      .error (.arity "lack" (.unknownType "*")) := by decide +kernel
  refine ⟨?_, ?_, ?_⟩
  · obtain ⟨-, hstarts, -⟩ := (declares_iff hs).1 hmark rfl
    obtain ⟨seen, rest, s', hperform, hbehind, hdeclares, -⟩ :=
      hstarts "--" ⟨[.int32, .any], [.string]⟩ ⟨⟨by decide, by decide⟩, by decide +kernel⟩
    refine ⟨rest, s', hperform, ?_, hbehind.consumed, hdeclares⟩
    exact List.append_cancel_left (hbehind.rest_words.symm.trans (by decide +kernel))
  · obtain ⟨hiff, -, hnone⟩ := (declares_iff hs).1 hlack rfl
    obtain ⟨word, fault, s', hrun, hdictionary, -⟩ := hnone fun name signature h => by
      obtain ⟨rest, s', hperform⟩ := hiff.mpr ⟨name, signature, h⟩
      cases hperform.symm.trans (Action.attempt_eq_error.mp hfails)
    exact ⟨word, fault, s', hrun, hdictionary⟩
  · exact (declares_iff hs).2 ")" ⟨[], [.int32, .float]⟩
      ⟨by decide, List.all_eq_true.mp rfl⟩ ⟨by decide, by decide⟩

end Machine
end Session
end StackEffect
