import StackEffect.Proofs.Cursor.Rereading
import StackEffect.Proofs.Machine.Linking
import StackEffect.Proofs.Module.Linking
import StackEffect.Proofs.Session.History

/-!
Definitions that are printed and read again. A definition has been read from tokens of a text, with
the words in front of its own (`Reachable.exists_source`), and its text is read as a definition of what
these tokens are read as. It is the same definition just when neither its name nor a token of its body
is a string that starts with a blank (`run_text_iff`).
-/
namespace StackEffect

/-! ### What was known -/

/-- The first words of a dictionary, with which it was before the one at a place was entered. -/
def Dictionary.before (d : Dictionary) (id : WordId) : Dictionary := ⟨d.words.take id⟩

theorem Dictionary.word?_before (d : Dictionary) (id i : WordId) :
    (d.before id).word? i = if i < id then d.word? i else none := by
  unfold before word?
  rw [Array.take_eq_extract, Array.getElem?_extract, Nat.sub_zero, Nat.zero_add]
  by_cases hi : i < id
  · by_cases hsize : i < d.words.size
    · rw [if_pos (Nat.lt_min.mpr ⟨hi, hsize⟩), if_pos hi]
    · rw [if_neg fun h => hsize (Nat.lt_min.mp h).2, if_pos hi,
        Array.getElem?_eq_none (Nat.le_of_not_lt hsize)]
  · rw [if_neg fun h => hi (Nat.lt_min.mp h).1, if_neg hi]

theorem Dictionary.ext_word? {d d' : Dictionary} (h : ∀ i, d.word? i = d'.word? i) : d = d' := by
  obtain ⟨words⟩ := d
  obtain ⟨words'⟩ := d'
  exact congrArg Dictionary.mk (Array.ext_getElem? h)

theorem Dictionary.enter_injective {d : Dictionary} {v v' : Word} (h : d.enter v = d.enter v') :
    v = v' := by
  have hword := congrArg (·.word? d.size) h
  simpa [word?_enter] using hword

namespace Session
variable {T : Target} {s s' : Session T} {id : WordId} {w : Word} {f : Definition}

theorem Entry.Shows.known_eq {d known : Dictionary} {name : String} {body : List Token}
    {w : Word} (h : Entry.Shows d (.defined known name body) (id, w)) : d.before id = known := by
  obtain ⟨rfl, hknown, -⟩ := h
  refine Dictionary.ext_word? fun i => ?_
  rw [Dictionary.word?_before]
  split_ifs with hi
  · exact hknown i hi
  · exact (Array.getElem?_eq_none (Nat.le_of_not_lt hi)).symm

/-! ### What was written -/

/-- The name and the body of a definition are tokens of a text. -/
def Entry.Written : Entry → Prop
  | .defined _ name body => (∃ t : Token, t.Lexed ∧ t.text = name) ∧ ∀ t ∈ body, t.InBody
  | .configured _ | .declared .. => True

theorem written_completes {c rest : Cursor} {sees : Token → Bool} {p : Phrase}
    (h : c.nextPhrase sees = .ok (some (p, rest))) (known : Dictionary) :
    ∀ e ∈ completes known p, e.Written := by
  cases Cursor.reads_of_nextPhrase h with
  | definition _ _ hname hbody =>
    intro e he
    obtain rfl := List.mem_singleton.mp he
    exact ⟨⟨_, Cursor.lexed_of_next hname, rfl⟩, Cursor.inBody_of_bodyTokens hbody⟩
  | unended _ _ hname hbody =>
    intro e he
    obtain rfl := List.mem_singleton.mp he
    exact ⟨⟨_, Cursor.lexed_of_next hname, rfl⟩, Cursor.inBody_of_bodyTokens hbody⟩
  | declaration =>
    intro e he
    obtain rfl := List.mem_singleton.mp he
    trivial
  | see => nofun
  | token => nofun

theorem written_completedFrom (c : Cursor) (s : Session T) :
    ∀ e ∈ completedFrom c s, e.Written := by
  fun_induction completedFrom c s with
  | case1 => nofun
  | case2 => nofun
  | case3 => nofun
  | case4 c s phrase rest hn u s' hp ih =>
    intro e he
    rcases List.mem_append.mp he with hfirst | hrest
    · exact written_completes hn _ e hfirst
    · exact ih e hrest

theorem History.written {target : T.State} {entries : List Entry}
    (h : History target s entries) : ∀ e ∈ entries, e.Written := by
  induction h with
  | start h =>
    intro e he
    obtain ⟨w, -, rfl⟩ := List.mem_map.mp he
    trivial
  | run text _ ih =>
    intro e he
    rcases List.mem_append.mp he with hold | hnew
    · exact ih e hold
    · exact written_completedFrom _ _ e hnew
  | takeOutput _ ih => exact ih

/-- A definition has been read from tokens of a text, with the words before its own. -/
theorem Reachable.exists_source {target : T.State} (h : Reachable target s)
    (hw : s.dictionary.word? id = some w) (hk : w.kind = .compiled f) : ∃ name body draft,
      Token.Lexed name ∧ (∀ t ∈ body, t.InBody) ∧
      readBody (s.dictionary.before id) body {} = .ok () draft ∧
      f = draft.toDefinition name.text body := by
  obtain ⟨entries, hhistory⟩ := h.exists_history
  have hsettled := hhistory.settled
  have hvisible : w.isHidden = false := by
    refine Bool.eq_false_iff.mpr fun hhidden => ?_
    rw [(hsettled.hidden hw).mp hhidden] at hk
    cases hk
  have hmem : (id, w) ∈ s.dictionary.entered :=
    Dictionary.mem_entered.mpr ⟨hw, hvisible, by simp [Word.isUser, hk]⟩
  obtain ⟨i, hi⟩ := List.getElem?_of_mem hmem
  obtain ⟨e, he, hshows⟩ := Pointwise.left_of_right hsettled.entered hi
  cases e with
  | configured c =>
    obtain ⟨signature, -, rfl⟩ := hshows
    cases hk
  | declared name inputs outputs =>
    obtain ⟨ins, outs, -, -, rfl⟩ := hshows
    cases hk
  | defined known name body =>
    -- Marking a word inline changes the word but not the definition.
    obtain ⟨⟨t, ht, rfl⟩, hbody⟩ := hhistory.written _ (List.mem_of_getElem? he)
    have hknown := hshows.known_eq
    obtain ⟨-, -, draft, hread, hv⟩ := hshows
    rw [hv] at hk
    cases hk
    exact ⟨t, body, draft, ht, hbody, by rw [hknown]; exact hread, rfl⟩

/-! ### Reading the text of a definition -/

/-- Two sessions of one of the targets of this project, whatever texts they have been given. -/
inductive Peers : {T : Target} → Session T → Session T → Prop
  | executing {s s' : Session Machine.target} : Reachable ({} : Machine) s →
      Reachable ({} : Machine) s' → Peers s s'
  | generating {name triple name' triple' : String} {s s' : Session IRModule.target} :
      Reachable ({ name, triple } : IRModule) s →
      Reachable ({ name := name', triple := triple' } : IRModule) s' → Peers s s'

/-- Code that has been generated for a definition is generated for it again. -/
theorem Peers.exists_generate (h : Peers s s') (hw : s.dictionary.word? id = some w)
    (hk : w.kind = .compiled f) (hf : f.Sound s'.dictionary.vocabulary) :
    ∃ function target, generate f (s'.functions.push none) s'.target = .ok function target := by
  cases h with
  | executing _ hs' => exact Machine.exists_generate hs'.linked hf
  | generating hs hs' =>
    have hlinked := hs.linked_module
    have hlinked' := hs'.linked_module
    obtain ⟨g, -, hsignature, b, hg⟩ := hlinked.answers hw (by simp [Word.isUser, hk])
    have htyped := hlinked.coherent.typed hg
    have hs : f.signature = .ok g.signature := by simpa [Word.signature, hk] using hsignature
    obtain ⟨g', m, hdeclare⟩ :=
      IRModule.exists_declare htyped.parameters htyped.results f.name f.name _
    obtain ⟨m', hgenerate⟩ := IRModule.exists_generate hf
      (hlinked'.covers (hlinked'.getElem?_push none)) hs hdeclare
    exact ⟨g', m', hgenerate⟩

/-- To run the text of a definition is to define it, with the tokens that its text is read as. -/
theorem exists_run_text {name : Token} {body : List Token} {signature : Signature}
    (hname : f.name = name.text) (hsource : f.source = body.map Token.text)
    (hs : f.signature = .ok signature) (hlexed : name.Lexed) (hbody : ∀ t ∈ body, t.InBody)
    (s : Session T) : ∃ body', List.Forall₂ (fun t t' => t.reread.Alike t') body body' ∧
      run f.text s = match define name.reread.text body' none s with
        | .ok u s' => .ok u s'.takeOver
        | .error e s' => .error e s'.reset.takeOver := by
  obtain ⟨body', last, hreads, hlast, hall⟩ :=
    f.reads_text hname hsource hs hlexed hbody s.seesNext
  refine ⟨body', hall, ?_⟩
  have hend (s : Session T) : runFrom last s = .ok () s := by
    refine runFrom_of_end ?_
    rw [Cursor.nextPhrase, Cursor.next_of_nil hlast]
    rfl
  unfold run
  rw [runFrom_of_phrase hreads.nextPhrase_eq, Action.bind_apply]
  dsimp only [perform]
  cases define name.reread.text body' none s with
  | error e s' => rfl
  | ok u s' =>
    dsimp only
    rw [hend]

/-- The text of a definition, in a session with the words that were before its own, is read as the
same definition just when neither its name nor a token of its body is a string that starts with a
blank and the target generates code for it again. The targets of this project always do. -/
theorem run_text_iff {target target' : T.State} (hs : Reachable target s)
    (hs' : Reachable target' s') (hw : s.dictionary.word? id = some w) (hk : w.kind = .compiled f)
    (hdict : s'.dictionary = s.dictionary.before id) :
    ((∃ s'', run f.text s' = .ok () s'' ∧
        s''.dictionary = s'.dictionary.enter (.compiled f.name f)) ↔
      (∀ text ∈ f.name :: f.source, startsBlank text = false) ∧
        ∃ function t, generate f (s'.functions.push none) s'.target = .ok function t) ∧
    (Peers s s' →
      ∃ function t, generate f (s'.functions.push none) s'.target = .ok function t) := by
  obtain ⟨name, body, draft, hlexed, hbody, hread, rfl⟩ := hs.exists_source hw hk
  rw [← hdict] at hread
  have hsound : (draft.toDefinition name.text body).Sound s'.dictionary.vocabulary :=
    sound_toDefinition hs'.sound hread
  obtain ⟨signature, hsignature⟩ := hsound.exists_signature
  obtain ⟨body', hall, hrun⟩ := exists_run_text (f := draft.toDefinition name.text body) rfl rfl
    hsignature hlexed hbody s'
  refine ⟨?_, fun hpeers => hpeers.exists_generate hw hk hsound⟩
  rw [hrun]
  constructor
  -- The definition that is entered has the texts that were read again, so that they are the old ones.
  · rintro ⟨s'', hok, hentered⟩
    cases hdefine : define name.reread.text body' none s' with
    | error e s₁ =>
      rw [hdefine] at hok
      cases hok
    | ok u s₁ =>
      obtain ⟨draft', function, t, -, hgenerate, rfl⟩ := define_eq_ok hdefine
      rw [hdefine] at hok
      cases hok
      have hword := Dictionary.enter_injective hentered
      have hname : name.reread.text = name.text := congrArg Word.name hword
      have hdefinition := WordKind.compiled.inj (congrArg Word.kind hword)
      rw [hdefinition] at hgenerate
      have hsource : body'.map Token.text = body.map Token.text :=
        congrArg Definition.source hdefinition
      have htexts : ∀ t ∈ body, t.reread.text = t.text := by
        have hreread : body.map (fun t => t.reread.text) = body'.map Token.text :=
          Pointwise.map_eq_map (hall.imp fun _ _ ht => ht.1)
        exact List.map_inj_left.mp (hreread.trans hsource)
      refine ⟨fun text htext => ?_, function, t, hgenerate⟩
      rcases List.mem_cons.mp htext with rfl | hmem
      · exact hlexed.text_reread_iff.mp hname
      · obtain ⟨t, ht, rfl⟩ := List.mem_map.mp hmem
        exact (hbody t ht).lexed.text_reread_iff.mp (htexts t ht)
  -- No string has lost a blank, so that the tokens are the old ones but for their places.
  · rintro ⟨hplain, function, t, hgenerate⟩
    have hname := hlexed.reread_eq_self (hplain _ List.mem_cons_self)
    have halike : List.Forall₂ Token.Alike body body' := by
      refine (Pointwise.with_mem hall).imp fun t t' ht => ?_
      have hsame := (hbody t ht.1).lexed.reread_eq_self
        (hplain _ (List.mem_cons_of_mem _ (List.mem_map_of_mem ht.1)))
      exact hsame ▸ ht.2
    rw [define_eq, hname, ← readBody_of_alike halike, hread]
    dsimp only
    rw [← toDefinition_of_alike halike, hgenerate]
    exact ⟨_, rfl, rfl⟩

/-- A definition with a string that has blanks inside it. -/
theorem run_text_iff_cheering :
    let s := ofText ": sq dup * ; : cheer sq \" well  done\" ;"
    let s' := ofText ": sq dup * ;"
    ∃ w f, s.dictionary.word? 24 = some w ∧ w.kind = .compiled f ∧
      f.text = ": cheer ( i -- i s ) sq \"well  done\" ;" ∧
      ∃ s'', run f.text s' = .ok () s'' ∧
        s''.dictionary = s'.dictionary.enter (.compiled "cheer" f) := by
  intro s s'
  have hprinted : (s.dictionary.word? 24).map (fun w => w.definition?.map fun f =>
      (f.text, f.name, f.source)) = some (some (": cheer ( i -- i s ) sq \"well  done\" ;",
        "cheer", ["sq", "\"well  done\""])) := by decide +kernel
  have hdict : s'.dictionary = s.dictionary.before 24 := by decide +kernel
  obtain ⟨w, hw, hf⟩ := Option.map_eq_some_iff.mp hprinted
  obtain ⟨f, hf, hparts⟩ := Option.map_eq_some_iff.mp hf
  obtain ⟨htext, hname, hsource⟩ : f.text = _ ∧ f.name = _ ∧ f.source = _ := by
    simpa using hparts
  have hk : w.kind = .compiled f := by
    unfold Word.definition? at hf
    split at hf
    · rename_i heq
      cases hf
      exact heq
    · cases hf
  have hplain : ∀ text ∈ f.name :: f.source, startsBlank text = false := by
    rw [hname, hsource]
    decide
  have hs : Reachable ({} : Machine) s := reachable_ofText _
  have hs' : Reachable ({} : Machine) s' := reachable_ofText _
  obtain ⟨hiff, hgenerate⟩ := run_text_iff hs hs' hw hk hdict
  have hread := hiff.mpr ⟨hplain, hgenerate (.executing hs hs')⟩
  rw [hname] at hread
  exact ⟨w, f, hw, hk, htext, hread⟩

/-- A string that starts with a blank is printed as one that does not. -/
theorem run_text_blank : ((ofText ": greet \"  well\" ;").definition? "greet").map (fun f =>
    (f.text, f.source, ((ofText f.text).definition? "greet").map Definition.source)) =
      some (": greet ( -- s ) \" well\" ;", ["\" well\""], some ["\"well\""]) := by
  decide +kernel

end Session

end StackEffect
