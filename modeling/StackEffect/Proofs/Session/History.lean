import StackEffect.Proofs.Session.Complaint

/-!
What a session has come to. Whatever texts it has been given, and however they ended, a session is
ready for the next one, its words are those that its completed phrases have entered in their order
(`Settled`), and no word is ever used before it is there (`settled_of_history`).
-/
namespace StackEffect.Session

/-- What has come into a session: an external word of its configuration, a declaration, or a
definition with the words that were known when it was read. -/
inductive Entry
  | configured (w : ExternalWord)
  | declared (name : String) (inputs outputs : List String)
  | defined (known : Dictionary) (name : String) (body : List Token)
deriving DecidableEq

variable {T : Target} {d : Dictionary} {functions : FunctionTable T} {entries : List Entry}

/-- The word that an entry has left, and its place. What was known before a definition is as it was
then. -/
def Entry.Shows (d : Dictionary) : Entry → WordId × Word → Prop
  | .configured w, (_, v) => ∃ s, w.signature = .ok s ∧ v = .external w.name w.linkSymbol s
  | .declared name inputs outputs, (_, v) => ∃ i o, ValueType.ofCodes name inputs = .ok i ∧
      ValueType.ofCodes name outputs = .ok o ∧ v = .external name name ⟨i, o⟩
  | .defined known name body, (id, v) => id = known.size ∧
      (∀ i < known.size, d.word? i = known.word? i) ∧
      ∃ draft, readBody known body {} = .ok () draft ∧
        v = { Word.compiled name (draft.toDefinition name body) with isInline := v.isInline }

/-- What a phrase enters that is dealt with to its end. -/
def completes (known : Dictionary) : Phrase → List Entry
  | .definition name body _ => [.defined known name body]
  | .declaration name inputs outputs => [.declared name inputs outputs]
  | .see _ | .token _ => []

/-- What is entered from a place in a text on, up to its end or the first error. -/
def completedFrom (c : Cursor) (s : Session T) : List Entry :=
  match _h : c.nextPhrase s.seesNext with
  | .error _ | .ok none => []
  | .ok (some (phrase, rest)) =>
    match perform c.consumed phrase s with
    | .error .. => []
    | .ok _ s' => completes s.dictionary phrase ++ completedFrom rest s'
termination_by c.rest.length
decreasing_by exact Cursor.length_nextPhrase_lt ‹_›

theorem completedFrom_of_end {c : Cursor} {s : Session T}
    (h : ∀ x, c.nextPhrase s.seesNext ≠ .ok (some x)) : completedFrom c s = [] := by
  rw [completedFrom]
  split
  · rfl
  · rfl
  · exact absurd ‹_› (h _)

theorem completedFrom_of_phrase {c rest : Cursor} {s : Session T} {phrase : Phrase}
    (h : c.nextPhrase s.seesNext = .ok (some (phrase, rest))) : completedFrom c s =
      match perform c.consumed phrase s with
      | .error .. => []
      | .ok _ s' => completes s.dictionary phrase ++ completedFrom rest s' := by
  rw [completedFrom]
  split
  · simp_all
  · simp_all
  · cases h.symm.trans ‹_›
    rfl

/-- What a session has come to by texts, and what has been entered on the way. -/
inductive History (target : T.State) : Session T → List Entry → Prop
  | start {config : Config} {s : Session T} : ofConfig target config = .ok s →
      History target s (config.externals.map .configured)
  | run {s : Session T} {entries : List Entry} (text : String) : History target s entries →
      History target (Action.attempt (run text) s).2
        (entries ++ completedFrom (Cursor.ofText text) s)
  | takeOutput {s : Session T} {entries : List Entry} : History target s entries →
      History target s.takeOutput.2 entries

theorem History.reachable {target : T.State} {s : Session T} (h : History target s entries) :
    Reachable target s := by
  induction h with
  | start h => exact .start h
  | run text _ ih => exact .run text ih
  | takeOutput _ ih => exact .takeOutput ih

theorem Reachable.exists_history {target : T.State} {s : Session T} (h : Reachable target s) :
    ∃ entries, History target s entries := by
  induction h with
  | start h => exact ⟨_, .start h⟩
  | run text _ ih =>
    obtain ⟨entries, hs⟩ := ih
    exact ⟨_, .run text hs⟩
  | takeOutput _ ih =>
    obtain ⟨entries, hs⟩ := ih
    exact ⟨_, .takeOutput hs⟩

/-! ### Words and functions -/

/-- The words that can be seen, and that have functions, are those that have been entered. -/
structure Orderly (d : Dictionary) (functions : FunctionTable T) (entries : List Entry) : Prop where
  size : functions.size = d.size
  filled : ∀ {id w}, d.word? id = some w →
    (((functions[id]?).join).isSome = true ↔ w.isUser = true)
  hidden : ∀ {id w}, d.word? id = some w → (w.isHidden = true ↔ w.kind = .pending)
  inlined : ∀ {id w}, d.word? id = some w → w.isInline = true →
    w.isBuiltin = true ∨ w.definition?.isSome = true
  entered : List.Forall₂ (Entry.Shows d) entries d.entered

theorem Entry.Shows.enter {e : Entry} {x : WordId × Word} (h : Entry.Shows d e x) (w : Word) :
    Entry.Shows (d.enter w) e x := by
  cases e with
  | configured v => exact h
  | declared name inputs outputs => exact h
  | defined known name body =>
    obtain ⟨hid, hknown, hrest⟩ := h
    refine ⟨hid, fun i hi => ?_, hrest⟩
    have hw : known.word? i = some known.words[i] := Array.getElem?_eq_getElem hi
    rw [hw]
    exact Dictionary.word?_enter_of_some w ((hknown i hi).trans hw)

theorem Entry.Shows.markInline {e : Entry} {x : WordId × Word} (h : Entry.Shows d e x) {id : WordId}
    (hid : d.latestDefinition = some id) (hx : x ∈ d.entered) : Entry.Shows (d.markInline id) e
      (x.1, if x.1 = id then { x.2 with isInline := true } else x.2) := by
  obtain ⟨w, f, hw, -, hk⟩ := Dictionary.latestDefinition_eq_some hid
  obtain ⟨hword, hvisible, -⟩ := Dictionary.word?_of_mem_entered hx
  obtain ⟨i, v⟩ := x
  have hexternal : ∀ {name symbol s}, v = .external name symbol s → i ≠ id := by
    rintro name symbol s rfl rfl
    cases hword.symm.trans hw
    cases hk
  cases e with
  | configured c =>
    obtain ⟨s, hs, hv⟩ := h
    exact ⟨s, hs, by rw [if_neg (hexternal hv), hv]⟩
  | declared name inputs outputs =>
    obtain ⟨ins, outs, hins, houts, hv⟩ := h
    exact ⟨ins, outs, hins, houts, by rw [if_neg (hexternal hv), hv]⟩
  | defined known name body =>
    obtain ⟨hplace, hknown, draft, hread, hv⟩ := h
    have hle : i ≤ id := Dictionary.le_latestDefinition hid hword hvisible (by rw [hv]; rfl)
    refine ⟨hplace, fun i' hi' => ?_, draft, hread, ?_⟩
    · rw [Dictionary.word?_markInline_of_ne, hknown i' hi']
      exact Nat.ne_of_lt (Nat.lt_of_lt_of_le hi' (hplace ▸ hle))
    · by_cases hi : i = id
      · simp only [hi, if_true]
        rw [hv]
      · simpa only [hi, if_false] using hv

namespace Orderly
variable (h : Orderly d functions entries)
include h

theorem completed : Completed d functions where
  visible hw hk := (h.hidden hw).mpr hk
  filled hw hu hf := by
    have hsome := (h.filled hw).mpr hu
    simp [hf] at hsome

theorem enter {w : Word} {function : Option T.Function} {more : List Entry}
    (hf : function.isSome = true ↔ w.isUser = true)
    (hh : w.isHidden = true ↔ w.kind = .pending) (hi : w.isInline = false)
    (hmore : List.Forall₂ (Entry.Shows (d.enter w)) more
      (if w.isHidden = false ∧ w.isUser = true then [(d.size, w)] else [])) :
    Orderly (d.enter w) (functions.push function) (entries ++ more) where
  size := by rw [Array.size_push, h.size, Dictionary.size_enter]
  filled {id v} hv := by
    rcases Dictionary.word?_enter_eq_some.mp hv with ⟨rfl, rfl⟩ | hv
    · rw [← h.size, Array.getElem?_push_size]
      exact hf
    · have hne : id ≠ functions.size := h.size ▸ Nat.ne_of_lt (Dictionary.lt_size_of_word? hv)
      rw [Array.getElem?_push, if_neg hne]
      exact h.filled hv
  hidden {id v} hv := by
    rcases Dictionary.word?_enter_eq_some.mp hv with ⟨rfl, rfl⟩ | hv
    · exact hh
    · exact h.hidden hv
  inlined {id v} hv hinline := by
    rcases Dictionary.word?_enter_eq_some.mp hv with ⟨rfl, rfl⟩ | hv
    · simp [hi] at hinline
    · exact h.inlined hv hinline
  entered := by
    rw [Dictionary.entered_enter]
    exact List.rel_append (h.entered.imp fun _ _ hx => hx.enter w) hmore

theorem abandon (name : String) : Orderly (d.enter (.pending name)) (functions.push none) entries := by
  have henter : Orderly (d.enter (.pending name)) (functions.push none) (entries ++ []) :=
    h.enter (by simp [Word.pending, Word.isUser]) (by simp [Word.pending]) rfl
      (by simp [Word.pending])
  rwa [List.append_nil] at henter

theorem declare {name symbol : String} {signature : Signature} (function : T.Function) {e : Entry}
    (he : Entry.Shows (d.enter (.external name symbol signature)) e
      (d.size, .external name symbol signature)) :
    Orderly (d.enter (.external name symbol signature)) (functions.push (some function))
      (entries ++ [e]) :=
  h.enter (by simp [Word.external, Word.isUser]) (by simp [Word.external]) rfl
    (by simpa [Word.external, Word.isUser] using he)

theorem define {name : String} {body : List Token} {draft : Draft} (function : T.Function)
    (hread : readBody d body {} = .ok () draft) :
    Orderly (d.enter (.compiled name (draft.toDefinition name body)))
      ((functions.push none).setIfInBounds d.size (some function))
      (entries ++ [.defined d name body]) := by
  have hshows : Entry.Shows (d.enter (.compiled name (draft.toDefinition name body)))
      (.defined d name body) (d.size, .compiled name (draft.toDefinition name body)) := by
    refine ⟨rfl, fun i hi => ?_, draft, hread, rfl⟩
    rw [Dictionary.word?_enter, if_neg (Nat.ne_of_lt hi)]
  rw [← h.size, setIfInBounds_push]
  exact h.enter (by simp [Word.compiled, Word.isUser]) (by simp [Word.compiled]) rfl
    (by simpa [Word.compiled, Word.isUser] using hshows)

theorem markInline {id : WordId} (hid : d.latestDefinition = some id) :
    Orderly (d.markInline id) functions entries := by
  obtain ⟨w, f, hw, -, hk⟩ := Dictionary.latestDefinition_eq_some hid
  refine ⟨?_, fun {i v} hv => ?_, fun {i v} hv => ?_, fun {i v} hv hinline => ?_, ?_⟩
  · rw [h.size, Dictionary.markInline, Dictionary.size_modify]
  · obtain ⟨v', hv', heq, -⟩ := Dictionary.word?_setInline hv
    have hfilled := h.filled hv'
    rw [heq]
    exact hfilled
  · obtain ⟨v', hv', heq, -⟩ := Dictionary.word?_setInline hv
    have hhidden := h.hidden hv'
    rw [heq]
    exact hhidden
  · obtain ⟨v', hv', heq, hcases⟩ := Dictionary.word?_setInline hv
    rw [heq]
    rcases hcases hinline with rfl | hinline'
    · cases hv'.symm.trans hw
      exact .inr (by simp [Word.definition?, hk])
    · have hbefore := h.inlined hv' hinline'
      exact hbefore
  · rw [Dictionary.entered_markInline, List.forall₂_map_right_iff]
    refine (Pointwise.symm (Pointwise.with_mem (Pointwise.symm h.entered))).imp fun e x hx => ?_
    exact hx.2.markInline hid hx.1

end Orderly

/-! ### Sessions -/

/-- The session is ready for a text, and its words are those that have been entered. -/
structure Settled (s : Session T) (entries : List Entry) : Prop
    extends Orderly s.dictionary s.functions entries where
  mode : s.mode = .topLevel
  draft : s.draft = {}

theorem Orderly.settled_reset {s : Session T} (h : Orderly s.dictionary s.functions entries) :
    s.reset.Settled entries := ⟨h, rfl, rfl⟩

theorem steady_settled (entries : List Entry) :
    Steady (fun s : Session T => s.Settled entries) T.Timely where
  stack _ hs := ⟨hs.toOrderly, hs.mode, hs.draft⟩
  output _ hs := ⟨hs.toOrderly, hs.mode, hs.draft⟩
  takeOver hs := ⟨hs.toOrderly, hs.mode, hs.draft⟩
  execute {s} function arguments hs := by
    cases h : T.execute function arguments s.target with
    | ok results target => exact ⟨hs.toOrderly, hs.mode, hs.draft⟩
    | error e target => exact ⟨⟨hs.toOrderly, hs.mode, hs.draft⟩, (Target.Raises.execute h).timely⟩
  raises := Target.timely_of_not
  markInline hs hid := ⟨hs.toOrderly.markInline hid, hs.mode, hs.draft⟩
  pending hs hn hk := by
    have hhidden := (hs.hidden (word?_of_named hn)).mpr hk
    rw [isHidden_of_named hn] at hhidden
    cases hhidden
  unfilled hs hw hu hf := by
    have hfilled := (hs.filled hw).mpr hu
    rw [hf] at hfilled
    cases hfilled

namespace Settled
variable {s : Session T} (h : s.Settled entries)
include h

theorem define (hd : s.dictionary.Sound) (name : String) (body : List Token)
    {fault : Option CompileError} (hfault : ∀ e, fault = some e → T.Timely e) :
    match Session.define name body fault s with
    | .ok _ s' => s'.Settled (entries ++ [.defined s.dictionary name body])
    | .error e s' => Orderly s'.dictionary s'.functions entries ∧ T.Timely e := by
  have habandon : ∀ draft target, Orderly (s.abandoned name draft target).dictionary
      (s.abandoned name draft target).functions entries := fun _ _ => h.toOrderly.abandon name
  rw [define_eq]
  cases hread : readBody s.dictionary body {} with
  | error e draft =>
    exact ⟨habandon draft s.target,
      Target.timely_of_not (h.completed.readTokens_error hd (.empty _) hread)⟩
  | ok u draft =>
    cases fault with
    | some e => exact ⟨habandon draft s.target, hfault e rfl⟩
    | none =>
      simp only
      have hsound : (draft.toDefinition name body).Sound (s.dictionary.enter (.pending name)).vocabulary :=
        (sound_toDefinition hd hread).mono fun _ => Dictionary.vocabulary_enter _
      have hgenerate := (h.toOrderly.abandon name).completed.timely_generate hsound
      cases hg : generate (draft.toDefinition name body) (s.functions.push none) s.target with
      | error e target => exact ⟨habandon {} target, (hgenerate.error trivial hg).2⟩
      | ok function target => exact ⟨h.toOrderly.define function hread, rfl, rfl⟩

theorem declare (name : String) (inputs outputs : List String) :
    match Session.declare name inputs outputs s with
    | .ok _ s' => s'.Settled (entries ++ [.declared name inputs outputs])
    | .error e s' => Orderly s'.dictionary s'.functions entries ∧ T.Timely e := by
  have hcodes : ∀ {codes e}, ValueType.ofCodes name codes = .error e → T.Timely e := by
    intro codes e he
    obtain ⟨code, -, he⟩ := Except.exists_of_mapM_eq_error he
    split at he
    · cases he
    · cases he
      exact Target.timely_of_not (by simp [CompileError.IsPremature])
  rw [declare_eq]
  cases hi : ValueType.ofCodes name inputs with
  | error e => exact ⟨h.toOrderly, hcodes hi⟩
  | ok i =>
    cases ho : ValueType.ofCodes name outputs with
    | error e => exact ⟨h.toOrderly, hcodes ho⟩
    | ok o =>
      simp only
      cases ht : T.declare name name ⟨i, o⟩ s.target with
      | error e target => exact ⟨h.toOrderly, (Target.Raises.declare ht).timely⟩
      | ok function target =>
        exact ⟨h.toOrderly.declare function ⟨i, o, hi, ho, rfl⟩, rfl, h.draft⟩

theorem perform (hd : s.dictionary.Sound) (position : Nat) (p : Phrase)
    (hfault : ∀ e, p.fault? = some e → T.Timely e) :
    match Session.perform position p s with
    | .ok _ s' => s'.Settled (entries ++ completes s.dictionary p)
    | .error e s' => Orderly s'.dictionary s'.functions entries ∧ T.Timely e := by
  have hsteady : Steady (fun s : Session T => s.Settled entries) T.Timely := steady_settled entries
  have hkept : ∀ {x : Action (Session T) Unit}, x.Keeps (fun s => s.Settled entries) T.Timely →
      match x s with
      | .ok _ s' => s'.Settled (entries ++ [])
      | .error e s' => Orderly s'.dictionary s'.functions entries ∧ T.Timely e := by
    intro x hx
    have hs := hx s h
    rw [List.append_nil]
    cases hxs : x s with
    | ok u s' =>
      rw [hxs] at hs
      exact hs
    | error e s' =>
      rw [hxs] at hs
      exact ⟨hs.1.toOrderly, hs.2⟩
  cases p with
  | definition name body fault => exact h.define hd name body hfault
  | declaration name inputs outputs => exact h.declare name inputs outputs
  | see name => exact hkept (hsteady.see name)
  | token t => exact hkept (hsteady.executeToken t position)

end Settled

variable {s : Session T} {target : T.State}

theorem Settled.runFrom (h : s.Settled entries) (hd : s.dictionary.Sound) (c : Cursor) :
    match Session.runFrom c s with
    | .ok _ s' => s'.Settled (entries ++ completedFrom c s)
    | .error e s' => Orderly s'.dictionary s'.functions (entries ++ completedFrom c s) ∧
        T.Timely e := by
  fun_induction Session.runFrom c s generalizing entries with
  | case1 c s e hn =>
    rw [completedFrom_of_end (by simp [hn]), List.append_nil]
    exact ⟨h.toOrderly, (Cursor.nextPhrase_error hn).timely T⟩
  | case2 c s hn => rwa [completedFrom_of_end (by simp [hn]), List.append_nil]
  | case3 c s phrase rest hn e s' hp =>
    have hperform := h.perform hd c.consumed phrase fun e he =>
      (Cursor.fault_of_nextPhrase hn he).timely T
    rw [hp] at hperform
    rw [completedFrom_of_phrase hn, hp, List.append_nil]
    exact hperform
  | case4 c s phrase rest hn u s' hp ih =>
    have hperform := h.perform hd c.consumed phrase fun e he =>
      (Cursor.fault_of_nextPhrase hn he).timely T
    rw [hp] at hperform
    have hd' : s'.dictionary.Sound := (outlasts_perform lasting_sound c.consumed phrase).ok hd hp
    rw [completedFrom_of_phrase hn, hp, ← List.append_assoc]
    exact ih hperform hd'

theorem Settled.run (h : s.Settled entries) (hd : s.dictionary.Sound) (text : String) :
    (Action.attempt (Session.run text) s).2.Settled
        (entries ++ completedFrom (Cursor.ofText text) s) ∧
      ∀ e, (Action.attempt (Session.run text) s).1 = .error e → T.Timely e := by
  have hrun := h.runFrom hd (Cursor.ofText text)
  have htakeOver := fun {s : Session T} {entries : List Entry} (hs : s.Settled entries) =>
    (steady_settled entries).takeOver hs
  unfold Action.attempt Session.run
  cases hr : Session.runFrom (Cursor.ofText text) s with
  | ok u s' =>
    rw [hr] at hrun
    exact ⟨htakeOver hrun, fun e he => nomatch he⟩
  | error e s' =>
    rw [hr] at hrun
    refine ⟨htakeOver hrun.1.settled_reset, fun e' he => ?_⟩
    cases he
    exact hrun.2

theorem settled_ofTarget (target : T.State) : (ofTarget target).Settled [] := by
  have hbuiltin : ∀ {id w}, Dictionary.withBuiltins.word? id = some w →
      ∃ name b, w = .builtin name b := by
    intro id w hw
    obtain ⟨x, -, rfl⟩ := Dictionary.word?_withBuiltins hw
    exact ⟨_, _, rfl⟩
  refine ⟨⟨Array.size_replicate, fun {id w} hw => ?_, fun hw => ?_, fun hw _ => ?_, ?_⟩, rfl, rfl⟩
  · obtain ⟨name, b, rfl⟩ := hbuiltin hw
    have hlt : id < Dictionary.withBuiltins.size := Dictionary.lt_size_of_word? hw
    have hnone : (ofTarget target).functions[id]? = some none := by simp [ofTarget, hlt]
    simp [hnone, Word.builtin, Word.isUser]
  · obtain ⟨name, b, rfl⟩ := hbuiltin hw
    simp [Word.builtin]
  · obtain ⟨name, b, rfl⟩ := hbuiltin hw
    exact .inl rfl
  · have hnone : Dictionary.withBuiltins.entered = [] := by
      refine List.eq_nil_iff_forall_not_mem.mpr fun x hx => ?_
      obtain ⟨hw, -, hu⟩ := Dictionary.word?_of_mem_entered hx
      obtain ⟨name, b, heq⟩ := hbuiltin hw
      simp [heq, Word.builtin, Word.isUser] at hu
    have hentered : (ofTarget target).dictionary.entered = [] := hnone
    rw [hentered]
    exact .nil

theorem Settled.configure (h : s.Settled entries) (words : List ExternalWord) {u : Unit}
    {s' : Session T} (hs : (words.forM fun w => (do
      let signature ← Action.ofExcept w.signature
      discard (declareExternal w.name w.linkSymbol signature) : Action (Session T) Unit)) s =
        .ok u s') :
    s'.Settled (entries ++ words.map .configured) := by
  induction words generalizing s entries with
  | nil =>
    cases hs
    rwa [List.map_nil, List.append_nil]
  | cons w words ih =>
    rw [Action.forM_cons] at hs
    obtain ⟨_, s₁, h₁, hs⟩ := Action.bind_eq_ok.mp hs
    obtain ⟨signature, s₀, h₀, h₁⟩ := Action.bind_eq_ok.mp h₁
    obtain ⟨hsignature, rfl⟩ := Action.ofExcept_eq_ok.mp h₀
    obtain ⟨id, h₁⟩ := Action.discard_eq_ok.mp h₁
    rw [declareExternal_eq] at h₁
    cases ht : T.declare w.name w.linkSymbol signature s.target with
    | error e target =>
      rw [ht] at h₁
      cases h₁
    | ok function target =>
      rw [ht] at h₁
      cases h₁
      have hdeclared : (s.declared w.name w.linkSymbol signature function target).Settled
          (entries ++ [.configured w]) :=
        ⟨h.toOrderly.declare function ⟨signature, hsignature, rfl⟩, h.mode, h.draft⟩
      simpa using ih hdeclared hs

theorem settled_ofConfig {config : Config} (h : ofConfig target config = .ok s) :
    s.Settled (config.externals.map .configured) := by
  simp only [ofConfig] at h
  split at h
  · rename_i hd
    cases h
    have hs := (settled_ofTarget target).configure config.externals hd
    exact ⟨hs.toOrderly, hs.mode, hs.draft⟩
  · cases h

theorem History.settled (h : History target s entries) : s.Settled entries := by
  induction h with
  | start h => exact settled_ofConfig h
  | run text h ih => exact (ih.run h.reachable.sound text).1
  | takeOutput _ ih => exact ⟨ih.toOrderly, ih.mode, ih.draft⟩

/-- A target of this project never says that a word is used too early. -/
theorem not_isPremature_of_raises (hT : T = Machine.target ∨ T = IRModule.target) {e : CompileError}
    (he : T.Raises e) : ¬e.IsPremature := by
  have htechnical : e.IsTechnical := by
    rcases hT with rfl | rfl
    · exact Machine.isTechnical_of_raises he
    · exact IRModule.isTechnical_of_raises he
  intro hpremature
  unfold CompileError.IsPremature at hpremature
  split at hpremature <;> simp_all [CompileError.IsTechnical]

/-- Whatever texts a session has been given, it is ready for the next one; its words are those that
have been entered, in their order; and no word is ever used before it is there, unless the target
itself says so, which the targets of this project never do. -/
theorem settled_of_history (h : History target s entries) : s.Settled entries ∧
    (∀ text e, (Action.attempt (run text) s).1 = .error e → e.IsPremature → T.Raises e) ∧
    ((T = Machine.target ∨ T = IRModule.target) →
      ∀ text e, (Action.attempt (run text) s).1 = .error e → ¬e.IsPremature) := by
  have htimely : ∀ text e, (Action.attempt (run text) s).1 = .error e → T.Timely e :=
    fun text => (h.settled.run h.reachable.sound text).2
  refine ⟨h.settled, htimely, fun hT text e he hpremature => ?_⟩
  exact not_isPremature_of_raises hT (htimely text e he hpremature) hpremature

def resumed : Session Machine.target :=
  ((run ": quad sq sq ;").attempt
    (ofText "extern print-int ( i -- ) : sq dup * ; inline : worse sq nope ;")).2

theorem settled_resumed : ∃ entries, History ({} : Machine) resumed entries ∧
    resumed.dictionary.entered.map (fun x => (x.1, x.2.name)) =
      [(23, "print-int"), (24, "sq"), (26, "quad")] ∧
    resumed.Settled entries ∧
    ∀ text e, (Action.attempt (run text) resumed).1 = .error e → ¬e.IsPremature := by
  have hconfig : @ofConfig Machine.target {} {} = .ok (ofTarget {}) := rfl
  have hstart : @History Machine.target {} (ofTarget {}) [] := .start hconfig
  have hhistory : @History Machine.target {} resumed _ := .run _ (.run _ hstart)
  have hsettled := settled_of_history hhistory
  exact ⟨_, hhistory, by decide +kernel, hsettled.1, hsettled.2.2 (.inl rfl)⟩

end StackEffect.Session
