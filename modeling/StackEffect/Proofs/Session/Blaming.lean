import StackEffect.Proofs.Cursor.Stream
import StackEffect.Proofs.Session.Complaint
import StackEffect.Proofs.Session.Rejection

/-!
The token that a type error is about. Words bear the names that they are found under, primitives and
definitions that are put in the place of a call among them (`Reachable.titled`), so that a type error
names the token that is read (`blamed_of_readBody`) or executed (`blamed_of_executeToken`). Positions
count the tokens of the body in the one case, and all tokens that the run has read in the other
(`stream_halt`); the token at the position is the one that is named (`text_of_mismatch`).
-/
namespace StackEffect

/-! ### Names of words -/

/-- What a word does bears the name of the word. -/
structure Dictionary.Titled (d : Dictionary) : Prop where
  primitive : ∀ {id w p}, d.word? id = some w → w.kind = .builtin (.primitive p) → p.name = w.name
  compiled : ∀ {id w f}, d.word? id = some w → w.kind = .compiled f → f.name = w.name

namespace Dictionary
variable {d : Dictionary}

theorem Titled.enter {w : Word} (hd : d.Titled)
    (hp : ∀ p, w.kind = .builtin (.primitive p) → p.name = w.name)
    (hf : ∀ f, w.kind = .compiled f → f.name = w.name) : (d.enter w).Titled where
  primitive hv hk := by
    rcases word?_enter_eq_some.mp hv with ⟨-, rfl⟩ | hv
    · exact hp _ hk
    · exact hd.primitive hv hk
  compiled hv hk := by
    rcases word?_enter_eq_some.mp hv with ⟨-, rfl⟩ | hv
    · exact hf _ hk
    · exact hd.compiled hv hk

theorem Titled.setInline (hd : d.Titled) (id : WordId) (mark : Bool) :
    (d.setInline id mark).Titled := by
  constructor
  · intro i w p hw hk
    obtain ⟨v, hv, heq, -⟩ := word?_setInline hw
    rw [heq] at hk
    exact (hd.primitive hv hk).trans (congrArg Word.name heq).symm
  · intro i w f hw hk
    obtain ⟨v, hv, heq, -⟩ := word?_setInline hw
    rw [heq] at hk
    exact (hd.compiled hv hk).trans (congrArg Word.name heq).symm

theorem name_of_mem_builtinWords {x : String × Builtin} {p : Primitive} (h : x ∈ builtinWords)
    (hp : x.2 = .primitive p) : p.name = x.1 := by
  have hall : ∀ x ∈ builtinWords, match x.2 with
      | .primitive p => p.name = x.1
      | _ => True := by
    simp [builtinWords, binaryWords, Primitive.name]
  have hx := hall x h
  rwa [hp] at hx

theorem titled_withBuiltins : withBuiltins.Titled where
  primitive hw hk := by
    obtain ⟨x, hx, rfl⟩ := word?_withBuiltins hw
    exact name_of_mem_builtinWords hx (WordKind.builtin.inj hk)
  compiled hw hk := by
    obtain ⟨x, -, rfl⟩ := word?_withBuiltins hw
    cases hk

end Dictionary

namespace Session
variable {T : Target}

theorem lasting_titled :
    Lasting fun (d : Dictionary) (_ : T.State) (_ : FunctionTable T) => d.Titled where
  markInline id hd := hd.setInline id true
  execute _ _ hd := hd
  takeOutput hd := hd
  declare hd _ _ := hd.enter (fun _ hk => nomatch hk) fun _ hk => nomatch hk
  declareFailed hd _ := hd
  abandon _ hd := hd.enter (fun _ hk => nomatch hk) fun _ hk => nomatch hk
  define hd _ _ := hd.enter (fun _ hk => nomatch hk) fun _ hk => by
    cases hk
    rfl
  defineFailed hd _ _ := hd.enter (fun _ hk => nomatch hk) fun _ hk => nomatch hk

theorem Reachable.titled {target : T.State} {s : Session T} (h : Reachable target s) :
    s.dictionary.Titled := h.holds lasting_titled Dictionary.titled_withBuiltins

section Names
variable {dictionary : Dictionary} {t : Token}

theorem name_of_named {x : WordId × Word} (h : named dictionary t = some x) : x.2.name = t.text := by
  unfold named at h
  split at h
  · cases h
  · exact (Dictionary.lookup_eq_some h).2.1

/-- What a token stands for bears its name, unless it takes nothing from the stack. -/
theorem word_of_resolves (hdict : dictionary.Titled) {op : Operation}
    (h : Resolves dictionary t op) {type : ValueType} (htype : type ∈ op.demands) :
    op.word = t.text := by
  cases h with
  | literal => cases htype
  | primitive hn hk => exact (hdict.primitive (word?_of_named hn) hk).trans (name_of_named hn)
  | call hn => exact name_of_named hn
  | splice hn hk => exact (hdict.compiled (word?_of_named hn) hk).trans (name_of_named hn)

/-! ### Reading -/

theorem blamed_of_readBody (hsound : dictionary.Sound) (htitled : dictionary.Titled)
    {body : List Token} {word : String} {position : Nat} {expected actual : ValueType}
    {draft : Draft} (h : readBody dictionary body {} =
      .error (.typeMismatch word position expected actual) draft) :
    ∃ t, body[position]? = some t ∧ t.text = word := by
  rcases readTokens_error hsound (Draft.Sound.empty _) h with
    ⟨t, -, hfault⟩ | ⟨⟨t, place⟩, ht, op, hop, required, hrequired, actual', he⟩
  · rcases operation_error hfault with ⟨name, he⟩ | ⟨use, he⟩ | ⟨index, bound, he⟩ <;> cases he
  · cases he
    have hword := word_of_resolves htitled (resolves_of_ok hop) hrequired
    exact ⟨t, List.mem_zipIdx_iff_getElem?.mp ht, hword.symm⟩

end Names

/-! ### Executing -/

/-- A type error is that of a word at a position, unless the target makes it. -/
def Blames (T : Target) (word : String) (position : Nat) (e : CompileError) : Prop :=
  ∀ word' place expected actual, e = .typeMismatch word' place expected actual →
    T.Raises e ∨ word' = word ∧ place = position

theorem blames_of_untyped {e : CompileError} (h : Untyped e) (word : String) (position : Nat) :
    Blames T word position e :=
  fun word' place expected actual he => absurd he (h word' place expected actual)

section Executing
variable {word : String} {position : Nat}

theorem untyped_topValues (word : String) (count : Nat) :
    (topValues word count : Action (Session T) _).Keeps (fun _ => True) Untyped := by
  intro s _
  rcases topValues_cases word count s with ⟨values, rest, -, -, htop⟩ | ⟨-, htop⟩
  · rw [htop]
    trivial
  · rw [htop]
    exact ⟨trivial, by simp [Untyped]⟩

theorem untyped_executeDirective (d : Directive) :
    (executeDirective d : Action (Session T) Unit).Keeps (fun _ => True) Untyped := by
  cases d with
  | print =>
    exact .bind (untyped_topValues "." 1) fun values =>
      .bind (.modify fun _ _ => trivial) fun _ => .modify fun _ _ => trivial
  | printStack => exact .bind .get fun s => .modify fun _ _ => trivial
  | words => exact .bind .get fun s => .modify fun _ _ => trivial
  | see => exact .throw (by simp [Untyped])
  | markInline =>
    refine .bind .get fun s => ?_
    cases s.dictionary.latestDefinition with
    | none => exact .throw (by simp [Untyped])
    | some id => exact .modify fun _ _ => trivial

theorem blames_checkOperands {α : Type} (required : α → ValueType) (value : α → Value)
    (xs : List α) : (Action.ofExcept (xs.forM fun x =>
      checkOperand word position (required x) (value x)) : Action (Session T) Unit).Keeps
        (fun _ => True) (Blames T word position) := by
  refine .ofExcept fun e he => ?_
  rcases checkOperands_cases word required value xs with hcheck | ⟨expected, actual, hcheck⟩
  · cases (hcheck position).symm.trans he
  · cases (hcheck position).symm.trans he
    rintro word' place expected' actual' ⟨⟩
    exact .inr ⟨rfl, rfl⟩

theorem blames_executePrimitive (p : Primitive) : (executePrimitive p position :
    Action (Session T) Unit).Keeps (fun _ => True) (Blames T p.name position) := by
  refine .bind ((untyped_topValues _ _).imp fun e he => blames_of_untyped he _ _) fun operands => ?_
  refine .bind (blames_checkOperands (fun _ => p.operandType) id _) fun _ => ?_
  refine .bind (.ofExcept fun e he => ?_) fun results => ?_
  · rcases Primitive.eval_error he with ⟨fault, rfl⟩ | ⟨word, expected, given, rfl⟩ <;>
      exact blames_of_untyped (by simp [Untyped]) _ _
  · exact .bind (.modify fun _ _ => trivial) fun _ => .modify fun _ _ => trivial

theorem blames_executeFunction (function : T.Function) (arguments : List Value) :
    (onTarget (T.execute function arguments) : Action (Session T) _).Keeps (fun _ => True)
      (Blames T word position) := by
  intro s _
  rw [onTarget, Action.within_apply]
  cases h : T.execute function arguments s.target with
  | ok results target => trivial
  | error e target => exact ⟨trivial, fun _ _ _ _ _ => .inl (.execute h)⟩

theorem blames_executeWord (id : WordId) (w : Word) : (executeWord id w position :
    Action (Session T) Unit).Keeps (fun _ => True) (Blames T w.name position) := by
  refine .bind (.ofExcept fun e he => ?_) fun signature => ?_
  · rcases signature_error he with ⟨use, rfl⟩ | ⟨index, bound, rfl⟩ <;>
      exact blames_of_untyped (by simp [Untyped]) _ _
  refine .bind ((untyped_topValues _ _).imp fun e he => blames_of_untyped he _ _) fun arguments => ?_
  refine .bind (blames_checkOperands Prod.fst Prod.snd _) fun _ => ?_
  refine .bind (.modify fun _ _ => trivial) fun _ => .bind .get fun s => ?_
  cases (s.functions[id]?).join with
  | none => exact .throw (blames_of_untyped (by simp [Untyped]) _ _)
  | some function =>
    exact .bind (blames_executeFunction function arguments) fun results =>
      .bind (.modify fun _ _ => trivial) fun _ => .modify fun _ _ => trivial

end Executing

variable {s s' : Session T} {t : Token} {word : String} {position place : Nat}
  {expected actual : ValueType}

/-- A token that is turned down for a type is named itself, and at its own position. -/
theorem blamed_of_executeToken (htitled : s.dictionary.Titled)
    (h : executeToken t position s = .error (.typeMismatch word place expected actual) s') :
    T.Raises (.typeMismatch word place expected actual) ∨ t.text = word ∧ place = position := by
  cases hn : named s.dictionary t with
  | none =>
    rw [executeToken, Action.bind_of_ok (Action.get_apply s), hn] at h
    rcases Action.bind_eq_error.mp h with hconstant | ⟨value, s₁, -, hpush⟩
    · obtain ⟨hconstant, -⟩ := Action.ofExcept_eq_error.mp hconstant
      unfold constant at hconstant
      split at hconstant <;> cases hconstant
    · cases hpush
  | some x =>
    obtain ⟨id, w⟩ := x
    have hname : w.name = t.text := name_of_named hn
    cases hu : w.isUser with
    | true =>
      rw [executeToken_of_user hn hu] at h
      rcases ((blames_executeWord id w).error trivial h).2 _ _ _ _ rfl with
        hraises | ⟨hblamed, hplace⟩
      · exact .inl hraises
      · exact .inr ⟨(hblamed.trans hname).symm, hplace⟩
    | false =>
      cases hk : w.kind with
      | compiled d => simp [Word.isUser, hk] at hu
      | external signature symbol => simp [Word.isUser, hk] at hu
      | pending =>
        rw [executeToken, Action.bind_of_ok (Action.get_apply s), hn] at h
        simp only [hk] at h
        cases h
      | builtin b =>
        cases b with
        | primitive p =>
          have hprimitive : p.name = w.name := htitled.primitive (word?_of_named hn) hk
          rw [executeToken_of_primitive hn hk] at h
          rcases ((blames_executePrimitive p).error trivial h).2 _ _ _ _ rfl with
            hraises | ⟨hblamed, hplace⟩
          · exact .inl hraises
          · exact .inr ⟨(hblamed.trans (hprimitive.trans hname)).symm, hplace⟩
        | directive d =>
          rw [executeToken, Action.bind_of_ok (Action.get_apply s), hn] at h
          simp only [hk] at h
          exact absurd rfl (((untyped_executeDirective d).error trivial h).2 word place expected
            actual)

/-! ### Phrases -/

theorem blamed_of_define (hsound : s.dictionary.Sound) (htitled : s.dictionary.Titled)
    {name : String} {body : List Token} {fault : Option CompileError}
    (hfault : ∀ e, fault = some e → e.IsUnreadable)
    (h : define name body fault s = .error (.typeMismatch word place expected actual) s') :
    T.Raises (.typeMismatch word place expected actual) ∨
      ∃ t, body[place]? = some t ∧ t.text = word := by
  rcases define_eq_error h with ⟨draft, hread, -⟩ | ⟨draft, -, hf, -⟩ |
    ⟨draft, target, -, -, hg, -⟩
  · exact .inr (blamed_of_readBody hsound htitled hread)
  · exact (hfault _ hf).elim
  · have hraises : Emission.Raises (draft.toDefinition name body).graph (s.functions.push none)
        fun e => Untyped e ∨ T.Raises e := by
      constructor <;> simp [Untyped]
    have hgenerate := keeps_generate
      (fun _ => (Target.keeps_of_raises .declare).imp fun _ he => .inr he)
      (fun function => (T.keeps_raises function).imp fun _ he => .inr he) hraises
    rcases (hgenerate.error trivial hg).2 with huntyped | hraises
    · exact absurd rfl (huntyped word place expected actual)
    · exact .inl hraises

/-! ### Runs -/

/-- The tokens that a run reads, phrase by phrase, up to the end of the phrase at which it comes to a
halt. -/
def stream (c : Cursor) (s : Session T) : List Token :=
  match _h : c.nextPhrase s.seesNext with
  | .error _ | .ok none => []
  | .ok (some (phrase, rest)) =>
    c.phraseStream s.seesNext ++
      match perform c.consumed phrase s with
      | .error .. => []
      | .ok _ s' => stream rest s'
termination_by c.rest.length
decreasing_by exact Cursor.length_nextPhrase_lt ‹_›

/-- The token at a position, as it is counted where a run comes to a halt: among the tokens of the body
if that is in front of a definition, among all that the run has read if it is in front of a token. -/
def tokenAt (c : Cursor) (s : Session T) (position : Nat) : Option Token :=
  match (halt c s).1.nextPhrase (halt c s).2.seesNext with
  | .ok (some (.definition _ body _, _)) => body[position]?
  | .ok (some (.token _, _)) => (stream c s)[position]?
  | _ => none

theorem stream_of_phrase {c rest : Cursor} {phrase : Phrase}
    (h : c.nextPhrase s.seesNext = .ok (some (phrase, rest))) : stream c s =
      c.phraseStream s.seesNext ++ match perform c.consumed phrase s with
        | .error .. => []
        | .ok _ s' => stream rest s' := by
  rw [stream]
  split
  · simp_all
  · simp_all
  · rename_i phrase' rest' h'
    cases h.symm.trans h'
    rfl

theorem stream_halt (c : Cursor) (s : Session T) {phrase : Phrase} {rest : Cursor}
    (h : (halt c s).1.nextPhrase (halt c s).2.seesNext = .ok (some (phrase, rest)))
    (hfails : ∃ e s', runFrom c s = .error e s') : ∃ before,
      stream c s = before ++ (halt c s).1.phraseStream (halt c s).2.seesNext ∧
        (halt c s).1.consumed = c.consumed + before.length := by
  obtain ⟨e, s', hrun⟩ := hfails
  fun_induction runFrom c s with
  | case1 c s e hn =>
    rw [halt_of_error hn] at h
    cases hn.symm.trans h
  | case2 c s hn =>
    rw [halt_of_end hn] at h
    cases hn.symm.trans h
  | case3 c s phrase' rest' hn e s' hp =>
    have hhalt : halt c s = (c, s) := by rw [halt_of_phrase hn, hp]
    rw [stream_of_phrase hn, hp, hhalt]
    exact ⟨[], List.append_nil _, rfl⟩
  | case4 c s phrase' rest' hn u s' hp ih =>
    have hhalt : halt c s = halt rest' s' := by rw [halt_of_phrase hn, hp]
    rw [hhalt] at h ⊢
    obtain ⟨before, hstream, hconsumed⟩ := ih h hrun
    have hcount := Cursor.consumed_of_nextPhrase hn (fault?_of_perform hp)
    refine ⟨c.phraseStream s.seesNext ++ before, ?_, ?_⟩
    · rw [stream_of_phrase hn, hp, List.append_assoc, ← hstream]
    · rw [hconsumed, hcount, List.length_append]
      omega

theorem untyped_of_raises (hT : T = Machine.target ∨ T = IRModule.target) {e : CompileError}
    (he : T.Raises e) : Untyped e := by
  rcases hT with rfl | rfl
  · exact (Machine.isTechnical_of_raises he).untyped
  · exact (IRModule.isTechnical_of_raises he).untyped

/-- A phrase that is turned down for a type has the token that is named. -/
theorem blamed_at_halt {c : Cursor} (hsound : (halt c s).2.dictionary.Sound)
    (htitled : (halt c s).2.dictionary.Titled) (hc : c.consumed = 0)
    (h : runFrom c s = .error (.typeMismatch word position expected actual) s') :
    T.Raises (.typeMismatch word position expected actual) ∨
      ∃ t, tokenAt c s position = some t ∧ t.text = word := by
  have hends := ends_halt c s
  rw [h] at hends
  cases hends with
  | unread hn => exact (Cursor.nextPhrase_error hn).elim
  | @failed phrase rest _ _ hn hp =>
    cases phrase with
    | definition name body fault =>
      have hfault : ∀ e, fault = some e → e.IsUnreadable := fun e => Cursor.fault_of_nextPhrase hn
      rcases blamed_of_define hsound htitled hfault hp with hraises | ⟨t, ht, htext⟩
      · exact .inl hraises
      · exact .inr ⟨t, by simpa only [tokenAt, hn] using ht, htext⟩
    | declaration name inputs outputs =>
      obtain ⟨target, -, ⟨⟨code, he⟩, -⟩ | ⟨signature, hd⟩⟩ := declare_eq_error hp
      · cases he
      · exact .inl (.declare hd)
    | see name =>
      rcases see_cases name (halt c s).2 with hsee | ⟨output, hsee⟩ <;> cases hsee.symm.trans hp
    | token t =>
      rcases blamed_of_executeToken htitled hp with hraises | ⟨htext, hplace⟩
      · exact .inl hraises
      · -- The token is the last one that has been read, and all in front of it have been counted.
        obtain ⟨before, hstream, hconsumed⟩ := stream_halt c s hn ⟨_, _, h⟩
        rw [hc, Nat.zero_add] at hconsumed
        refine .inr ⟨t, ?_, htext⟩
        simp only [tokenAt, hn, hstream, Cursor.phraseStream_of_token hn, hplace, hconsumed,
          List.getElem?_concat_length]

/-- A type error is about the token at its position, which has the text that it names: whether a body is
read or a token is executed, and whether an operation, a call or a body in the place of a call asks for
the value. The target alone might say otherwise, which the targets of this project never do. -/
theorem text_of_mismatch {target : T.State} (hs : Reachable target s) {text : String}
    (h : run text s = .error (.typeMismatch word position expected actual) s') :
    (T.Raises (.typeMismatch word position expected actual) ∨
      ∃ t, tokenAt (.ofText text) s position = some t ∧ t.text = word) ∧
    (T = Machine.target ∨ T = IRModule.target →
      ∃ t, tokenAt (.ofText text) s position = some t ∧ t.text = word) := by
  obtain ⟨s₁, hrun, rfl⟩ := run_eq_error.mp h
  have hsound : (halt (.ofText text) s).2.dictionary.Sound := holds_halt lasting_sound _ hs.sound
  have htitled : (halt (.ofText text) s).2.dictionary.Titled :=
    holds_halt lasting_titled _ hs.titled
  have hblamed := blamed_at_halt hsound htitled rfl hrun
  refine ⟨hblamed, fun hT => hblamed.resolve_left fun hraises => ?_⟩
  exact untyped_of_raises hT hraises word position expected actual rfl

def raising : Session Machine.target := ofText ": sq dup * ; inline : quad sq sq ; inline"

def readText : String := ": never ( any ) \"x\" quad ;"

def executedText : String := "1 extern ) ( i -- ) see sq : two 2 ; ( any ) \"x\" quad"

theorem text_of_mismatch_raising :
    ((run readText).attempt raising).1 = .error (.typeMismatch "quad" 1 .int32 .string) ∧
      (∃ t, tokenAt (.ofText readText) raising 1 = some t ∧ t.text = "quad") ∧
      ((run executedText).attempt raising).1 = .error (.typeMismatch "quad" 14 .int32 .string) ∧
      ∃ t, tokenAt (.ofText executedText) raising 14 = some t ∧ t.text = "quad" := by
  have hread : ((run readText).attempt raising).1 =
      .error (.typeMismatch "quad" 1 .int32 .string) := by decide +kernel
  have hexecuted : ((run executedText).attempt raising).1 =
      .error (.typeMismatch "quad" 14 .int32 .string) := by decide +kernel
  have hs : Reachable ({} : Machine) raising := reachable_ofText _
  exact ⟨hread, (text_of_mismatch hs (Action.attempt_eq_error.mp hread)).2 (.inl rfl), hexecuted,
    (text_of_mismatch hs (Action.attempt_eq_error.mp hexecuted)).2 (.inl rfl)⟩

end Session
end StackEffect
