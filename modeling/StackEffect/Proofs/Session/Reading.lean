import StackEffect.Proofs.Cursor.Later
import StackEffect.Proofs.Dictionary
import StackEffect.Proofs.Emission
import StackEffect.Proofs.Sequencing
import StackEffect.Session

/-!
Definitions step by step. Reading a body touches the draft alone and looks words up in the dictionary
as it was (`readBody`), a token at a time: a token stands for an operation (`operation`), which is all
that the draft gets to see of it (`readToken_eq_ok`). The target then generates the code
(`generate`), and the word becomes visible when all of this has gone well; otherwise its hidden place
is all that is left (`define_eq`).
-/
namespace StackEffect

def Draft.toDefinition (d : Draft) (name : String) (body : List Token) : Definition where
  name
  graph := d.graph
  arguments := d.arguments.toList
  outputs := d.contents
  source := body.map Token.text

def Word.compiled (name : String) (d : Definition) : Word := { name, kind := .compiled d }

theorem setIfInBounds_push {α : Type} (xs : Array α) (x y : α) :
    (xs.push x).setIfInBounds xs.size y = xs.push y := by
  apply Array.ext_getElem?
  intro i
  rw [Array.getElem?_setIfInBounds, Array.getElem?_push, Array.getElem?_push]
  by_cases h : xs.size = i
  · simp [h]
  · simp [h, Ne.symm h]

theorem getElem?_push_of_lt {α : Type} {xs : Array α} {i : Nat} (h : i < xs.size) (x : α) :
    (xs.push x)[i]? = xs[i]? := by
  rw [Array.getElem?_push, if_neg (Nat.ne_of_lt h)]

/-- What a body can hold. -/
inductive Operation
  | literal (value : Value)
  | primitive (p : Primitive)
  | call (callee : Callee)
  | splice (f : Definition)

/-- Adds the operation, which is the token at `position`, to a draft. -/
def Operation.read (position : Nat) : Operation → Action Draft Unit
  | literal value => discard (Draft.literal value)
  | primitive p => discard (Draft.apply p position)
  | call callee => discard (Draft.call callee position)
  | splice f => f.inlineInto position

def Operation.readAll (ops : List Operation) (start : Nat) : Action Draft Unit :=
  (ops.zipIdx start).forM fun (op, position) => op.read position

theorem Operation.readAll_append (ops more : List Operation) (start : Nat) :
    readAll (ops ++ more) start = (do readAll ops start; readAll more (start + ops.length)) := by
  rw [readAll, List.zipIdx_append]
  exact List.forM_append

namespace Session
variable {T : Target}

/-! ### Reading a body -/

def readToken (dictionary : Dictionary) (t : Token) (position : Nat) : Action Draft Unit :=
  match named dictionary t with
  | some (id, w) => compileWord id w position
  | none => do
    let value ← Action.ofExcept (constant t)
    discard (Draft.literal value)

def readTokens (dictionary : Dictionary) (tokens : List (Token × Nat)) : Action Draft Unit :=
  tokens.forM fun (t, position) => readToken dictionary t position

def readBody (dictionary : Dictionary) (body : List Token) : Action Draft Unit :=
  readTokens dictionary body.zipIdx

theorem readToken_of_alike {dictionary : Dictionary} {t t' : Token} (h : t.Alike t') :
    readToken dictionary t = readToken dictionary t' := by
  obtain ⟨text, literal, place⟩ := t
  obtain ⟨text', literal', place'⟩ := t'
  obtain ⟨rfl, rfl⟩ := h
  rfl

/-- The places of its tokens are of no account to a body. -/
theorem readTokens_of_alike {dictionary : Dictionary} {body body' : List Token}
    (h : List.Forall₂ Token.Alike body body') (start : Nat) :
    readTokens dictionary (body.zipIdx start) = readTokens dictionary (body'.zipIdx start) := by
  induction h generalizing start with
  | nil => rfl
  | @cons t t' body body' ht _ ih =>
    have hrest := ih (start + 1)
    unfold readTokens at hrest ⊢
    rw [List.zipIdx_cons, List.zipIdx_cons, Action.forM_cons, Action.forM_cons, hrest]
    dsimp only
    rw [readToken_of_alike ht]

theorem readBody_of_alike {dictionary : Dictionary} {body body' : List Token}
    (h : List.Forall₂ Token.Alike body body') :
    readBody dictionary body = readBody dictionary body' :=
  readTokens_of_alike h 0

theorem toDefinition_of_alike {body body' : List Token} (h : List.Forall₂ Token.Alike body body')
    (draft : Draft) (name : String) :
    draft.toDefinition name body = draft.toDefinition name body' := by
  unfold Draft.toDefinition
  rw [Pointwise.map_eq_map (h.imp fun _ _ ht => ht.1)]

/-! ### What a token stands for -/

theorem word?_of_named {dictionary : Dictionary} {t : Token} {x : WordId × Word}
    (h : named dictionary t = some x) : dictionary.word? x.1 = some x.2 := by
  unfold named at h
  split at h
  · cases h
  · exact (Dictionary.lookup_eq_some h).1

theorem isHidden_of_named {dictionary : Dictionary} {t : Token} {x : WordId × Word}
    (h : named dictionary t = some x) : x.2.isHidden = false := by
  unfold named at h
  split at h
  · cases h
  · exact (Dictionary.lookup_eq_some h).2.2

def wordOperation (id : WordId) (w : Word) : Except CompileError Operation :=
  match w.kind with
  | .builtin (.primitive p) => .ok (.primitive p)
  | .builtin (.directive _) => .error (.unsupported (.directiveInside w.name))
  | .pending => .error (.unsupported (.callsPending w.name))
  | .compiled _ | .external .. =>
    match w.isInline, w.definition? with
    | true, some f => .ok (.splice f)
    | _, _ => do return .call ⟨id, w.name, ← w.signature⟩

def operation (dictionary : Dictionary) (t : Token) : Except CompileError Operation :=
  match named dictionary t with
  | some (id, w) => wordOperation id w
  | none => do return .literal (← constant t)

/-- What a token stands for. A literal and a primitive become nodes; a word that has been entered is
called or, if it is inline, its body stands in the place of the call. -/
inductive Resolves (dictionary : Dictionary) (t : Token) : Operation → Prop
  | literal {value : Value} : named dictionary t = none → constant t = .ok value →
      Resolves dictionary t (.literal value)
  | primitive {id : WordId} {w : Word} {p : Primitive} : named dictionary t = some (id, w) →
      w.kind = .builtin (.primitive p) → Resolves dictionary t (.primitive p)
  | call {id : WordId} {w : Word} {s : Signature} : named dictionary t = some (id, w) →
      w.isUser = true → w.signature = .ok s → Resolves dictionary t (.call ⟨id, w.name, s⟩)
  | splice {id : WordId} {w : Word} {f : Definition} : named dictionary t = some (id, w) →
      w.kind = .compiled f → w.isInline = true → Resolves dictionary t (.splice f)

theorem resolves_of_ok {dictionary : Dictionary} {t : Token} {op : Operation}
    (h : operation dictionary t = .ok op) : Resolves dictionary t op := by
  unfold operation at h
  cases hn : named dictionary t with
  | none =>
    rw [hn] at h
    obtain ⟨value, hv, h⟩ := Except.bind_eq_ok.mp h
    cases h
    exact .literal hn hv
  | some x =>
    obtain ⟨id, w⟩ := x
    rw [hn] at h
    have hcall : w.isUser = true → (do return Operation.call ⟨id, w.name, ← w.signature⟩) = .ok op →
        Resolves dictionary t op := by
      intro hu hc
      obtain ⟨s, hs, hc⟩ := Except.bind_eq_ok.mp hc
      cases hc
      exact .call hn hu hs
    obtain ⟨name, kind, inline, hidden⟩ := w
    cases kind with
    | builtin b =>
      cases b with
      | directive directive => cases h
      | primitive p =>
        cases h
        exact .primitive hn rfl
    | pending => cases h
    | external s symbol => cases inline <;> exact hcall rfl h
    | compiled f =>
      cases inline with
      | false => exact hcall rfl h
      | true =>
        cases h
        exact .splice hn rfl rfl

/-- Reading a token is to do to the draft what the token stands for. -/
theorem readToken_eq (dictionary : Dictionary) (t : Token) (position : Nat) :
    readToken dictionary t position = (do
      let op ← Action.ofExcept (operation dictionary t)
      op.read position) := by
  unfold readToken operation
  cases named dictionary t with
  | none => cases constant t <;> rfl
  | some x =>
    obtain ⟨id, name, kind, inline, hidden⟩ := x
    cases kind with
    | builtin b => cases b <;> rfl
    | pending => rfl
    | external s symbol => cases inline <;> rfl
    | compiled f =>
      cases inline with
      | true => rfl
      | false =>
        simp only [compileWord, wordOperation, Word.signature]
        cases f.signature <;> rfl

theorem readToken_eq_ok {dictionary : Dictionary} {t : Token} {position : Nat} {d e : Draft}
    {u : Unit} : readToken dictionary t position d = .ok u e ↔
      ∃ op, operation dictionary t = .ok op ∧ op.read position d = .ok u e := by
  rw [readToken_eq, Action.bind_eq_ok]
  constructor
  · rintro ⟨op, d', h, hread⟩
    obtain ⟨hop, rfl⟩ := Action.ofExcept_eq_ok.mp h
    exact ⟨op, hop, hread⟩
  · rintro ⟨op, hop, hread⟩
    exact ⟨op, d, Action.ofExcept_eq_ok.mpr ⟨hop, rfl⟩, hread⟩

theorem readTokens_eq_ok {dictionary : Dictionary} {tokens : List Token} {start : Nat} {d e : Draft}
    {u : Unit} : readTokens dictionary (tokens.zipIdx start) d = .ok u e ↔
      ∃ ops, tokens.mapM (operation dictionary) = .ok ops ∧
        Operation.readAll ops start d = .ok u e := by
  induction tokens generalizing start d with
  | nil => exact ⟨fun h => ⟨[], rfl, h⟩, fun ⟨ops, hops, h⟩ => by cases hops; exact h⟩
  | cons t tokens ih =>
    rw [List.zipIdx_cons, readTokens, Action.forM_cons, Action.bind_eq_ok]
    constructor
    · rintro ⟨_, d₁, h₁, h⟩
      obtain ⟨op, hop, h₁⟩ := readToken_eq_ok.mp h₁
      obtain ⟨ops, hops, h⟩ := ih.mp h
      exact ⟨op :: ops, Except.mapM_cons_eq_ok.mpr ⟨op, ops, hop, hops, rfl⟩,
        Action.bind_eq_ok.mpr ⟨_, d₁, h₁, h⟩⟩
    · rintro ⟨_, hall, h⟩
      obtain ⟨op, ops, hop, hops, rfl⟩ := Except.mapM_cons_eq_ok.mp hall
      obtain ⟨_, d₁, h₁, h⟩ := Action.bind_eq_ok.mp h
      exact ⟨_, d₁, readToken_eq_ok.mpr ⟨op, hop, h₁⟩, ih.mpr ⟨ops, hops, h⟩⟩

theorem named_enter_pending (d : Dictionary) (name : String) (t : Token) :
    named (d.enter (.pending name)) t = named d t := by
  unfold named
  rw [Dictionary.lookup_enter_hidden rfl]

theorem readTokens_enter_pending (d : Dictionary) (name : String) (tokens : List (Token × Nat)) :
    readTokens (d.enter (.pending name)) tokens = readTokens d tokens := by
  simp only [readTokens, readToken, named_enter_pending]

theorem compileToken_apply (t : Token) (position : Nat) (s : Session T) :
    compileToken t position s = onDraft (readToken s.dictionary t position) s := by
  unfold compileToken readToken
  simp only [Action.bind_apply, Action.get_apply]
  cases named s.dictionary t with
  | some x => rfl
  | none =>
    cases hc : constant t with
    | error e => rfl
    | ok value =>
      simp only [Action.bind_apply, Action.ofExcept_ok, onDraft, Action.within_apply,
        Action.discard_apply]
      cases Draft.literal value s.draft <;> rfl

theorem compileTokens_apply (tokens : List (Token × Nat)) (s : Session T) :
    (tokens.forM fun (t, position) => compileToken t position) s =
      onDraft (readTokens s.dictionary tokens) s := by
  unfold readTokens
  induction tokens generalizing s with
  | nil => rfl
  | cons t tokens ih =>
    simp only [Action.forM_cons, Action.bind_apply, compileToken_apply, onDraft, Action.within_apply]
    cases readToken s.dictionary t.1 t.2 s.draft with
    | ok u d =>
      simp only [ih, onDraft, Action.within_apply]
    | error e d => rfl

/-! ### Definitions -/

theorem finishDraft_apply (name : String) (body : List Token) (s : Session T) :
    finishDraft name body s = .ok (s.draft.toDefinition name body) { s with draft := {} } := rfl

/-- Declares the function of a definition and generates its code. -/
def generate (d : Definition) (functions : FunctionTable T) : Action T.State T.Function := do
  let signature ← Action.ofExcept d.signature
  let function ← T.declare d.name d.name signature
  discard (d.compile function functions)
  return function

theorem keeps_generate {E : CompileError → Prop} {d : Definition} {functions : FunctionTable T}
    (hdeclare : ∀ signature, (T.declare d.name d.name signature).Keeps (fun _ => True) E)
    (hbody : ∀ function, T.Keeps (fun _ => True) E function)
    (hE : Emission.Raises d.graph functions E) :
    (generate d functions).Keeps (fun _ => True) E := by
  refine .bind (.ofExcept fun e he => ?_) fun signature => .bind (hdeclare signature) fun function =>
    .bind (.discard (Definition.keeps_compile (hbody function) hE)) fun _ => .pure _
  obtain ⟨index, bound, rfl⟩ := Definition.signature_error he
  exact hE.index index bound

/-- A session whose definition has been given up: its place is taken and stays hidden. -/
def abandoned (s : Session T) (name : String) (draft : Draft) (target : T.State) : Session T :=
  { s with
    mode := .definingBody
    draft
    target
    dictionary := s.dictionary.enter (.pending name)
    functions := s.functions.push none }

def defined (s : Session T) (d : Definition) (function : T.Function) (target : T.State) :
    Session T :=
  { s with
    mode := .topLevel
    draft := {}
    target
    dictionary := s.dictionary.enter (.compiled d.name d)
    functions := (s.functions.push none).setIfInBounds s.dictionary.size (some function)
    output := if s.traces then s.output ++ (d.trace ++ "\n") else s.output }

theorem lookup_defined (s : Session T) (draft : Draft) (name : String) (body : List Token)
    (function : T.Function) (target : T.State) :
    (s.defined (draft.toDefinition name body) function target).dictionary.lookup name =
      some (s.dictionary.size, .compiled name (draft.toDefinition name body)) :=
  (Dictionary.lookup_enter ..).trans (if_pos ⟨rfl, rfl⟩)

theorem define_eq (name : String) (body : List Token) (fault : Option CompileError)
    (s : Session T) : define name body fault s =
      match readBody s.dictionary body {} with
      | .error e draft => .error e (s.abandoned name draft s.target)
      | .ok _ draft =>
        match fault with
        | some e => .error e (s.abandoned name draft s.target)
        | none =>
          match generate (draft.toDefinition name body) (s.functions.push none) s.target with
          | .error e target => .error e (s.abandoned name {} target)
          | .ok function target =>
            .ok () (s.defined (draft.toDefinition name body) function target) := by
  unfold define
  simp only [Action.bind_apply, Action.modify_apply, enter, compileTokens_apply,
    readTokens_enter_pending, onDraft, Action.within_apply, readBody]
  cases readTokens s.dictionary body.zipIdx {} with
  | error e d => rfl
  | ok u draft =>
    cases fault with
    | some e => rfl
    | none =>
      simp only [Option.forM, Action.pure_apply, finishDraft_apply, generate, Action.bind_apply]
      have hname : (draft.toDefinition name body).name = name := rfl
      generalize draft.toDefinition name body = d at hname ⊢
      cases d.signature with
      | error e => rfl
      | ok signature =>
        simp only [Action.ofExcept_ok, hname, onTarget, Action.within_apply]
        cases T.declare name name signature s.target with
        | error e target => rfl
        | ok function target =>
          simp only [Action.get_apply, Action.discard_apply, Action.within_apply]
          cases d.compile function (s.functions.push none) target with
          | error e target => rfl
          | ok cache target =>
            have hentered : (s.dictionary.enter (.pending name)).modify s.dictionary.size
                (fun w => { w with kind := .compiled d, isHidden := false }) =
                s.dictionary.enter (.compiled name d) := Dictionary.modify_enter ..
            cases ht : s.traces <;>
              simp [defined, complete, print, Action.bind_apply, hname, hentered, ht]

/-- A definition that is accepted has been read to its end, and code has been generated for it. -/
theorem define_eq_ok {name : String} {body : List Token} {fault : Option CompileError}
    {s s' : Session T} {u : Unit} (h : define name body fault s = .ok u s') :
    ∃ draft function target, readBody s.dictionary body {} = .ok () draft ∧
      generate (draft.toDefinition name body) (s.functions.push none) s.target =
        .ok function target ∧
      s' = s.defined (draft.toDefinition name body) function target := by
  rw [define_eq] at h
  cases hread : readBody s.dictionary body {} with
  | error e draft => simp [hread] at h
  | ok u draft =>
    cases fault with
    | some e => simp [hread] at h
    | none =>
      simp only [hread] at h
      cases hg : generate (draft.toDefinition name body) (s.functions.push none) s.target with
      | error e target => simp [hg] at h
      | ok function target =>
        simp only [hg, EStateM.Result.ok.injEq, true_and] at h
        exact ⟨draft, function, target, rfl, hg, h.symm⟩

/-- A definition that is turned down cannot be read, has no end, or there is no code for it. -/
theorem define_eq_error {name : String} {body : List Token} {fault : Option CompileError}
    {s s' : Session T} {e : CompileError} (h : define name body fault s = .error e s') :
    (∃ draft, readBody s.dictionary body {} = .error e draft ∧
      s' = s.abandoned name draft s.target) ∨
    (∃ draft, readBody s.dictionary body {} = .ok () draft ∧ fault = some e ∧
      s' = s.abandoned name draft s.target) ∨
    ∃ draft target, readBody s.dictionary body {} = .ok () draft ∧ fault = none ∧
      generate (draft.toDefinition name body) (s.functions.push none) s.target = .error e target ∧
      s' = s.abandoned name {} target := by
  rw [define_eq] at h
  cases hread : readBody s.dictionary body {} with
  | error e' draft =>
    simp only [hread] at h
    cases h
    exact .inl ⟨draft, rfl, rfl⟩
  | ok u draft =>
    cases fault with
    | some e' =>
      simp only [hread] at h
      cases h
      exact .inr (.inl ⟨draft, rfl, rfl, rfl⟩)
    | none =>
      simp only [hread] at h
      cases hg : generate (draft.toDefinition name body) (s.functions.push none) s.target with
      | ok function target => simp [hg] at h
      | error e' target =>
        simp only [hg] at h
        cases h
        exact .inr (.inr ⟨draft, target, rfl, rfl, hg, rfl⟩)

/-! ### Declarations -/

def declared (s : Session T) (name symbol : String) (signature : Signature) (function : T.Function)
    (target : T.State) : Session T :=
  { s with
    target
    dictionary := s.dictionary.enter (.external name symbol signature)
    functions := s.functions.push (some function) }

theorem declareExternal_eq (name symbol : String) (signature : Signature) (s : Session T) :
    declareExternal name symbol signature s =
      match T.declare name symbol signature s.target with
      | .error e target => .error e { s with target }
      | .ok function target =>
        .ok s.dictionary.size (s.declared name symbol signature function target) := by
  unfold declareExternal
  simp only [Action.bind_apply, onTarget, Action.within_apply]
  cases T.declare name symbol signature s.target <;> rfl

theorem declare_eq (name : String) (inputs outputs : List String) (s : Session T) :
    declare name inputs outputs s =
      match ValueType.ofCodes name inputs, ValueType.ofCodes name outputs with
      | .error e, _ => .error e { s with mode := .definingExternal }
      | .ok _, .error e => .error e { s with mode := .definingExternal }
      | .ok i, .ok o =>
        match T.declare name name ⟨i, o⟩ s.target with
        | .error e target => .error e { s with mode := .definingExternal, target }
        | .ok function target =>
          .ok () { s.declared name name ⟨i, o⟩ function target with mode := .topLevel } := by
  unfold declare
  simp only [Action.bind_apply, Action.modify_apply]
  cases ValueType.ofCodes name inputs with
  | error e => rfl
  | ok i =>
    cases ValueType.ofCodes name outputs with
    | error e => rfl
    | ok o =>
      simp only [Action.ofExcept_ok, Action.discard_apply, declareExternal_eq]
      cases T.declare name name ⟨i, o⟩ s.target <;> rfl

theorem ofCodes_error {word : String} {codes : List String} {e : CompileError}
    (h : ValueType.ofCodes word codes = .error e) : ∃ code, e = .arity word (.unknownType code) := by
  obtain ⟨code, -, hcode⟩ := Except.exists_of_mapM_eq_error h
  split at hcode <;> cases hcode
  exact ⟨code, rfl⟩

theorem declare_eq_ok {name : String} {inputs outputs : List String} {s s' : Session T} {u : Unit}
    (h : declare name inputs outputs s = .ok u s') : ∃ signature function target,
      T.declare name name signature s.target = .ok function target ∧
      s' = { s.declared name name signature function target with mode := .topLevel } := by
  rw [declare_eq] at h
  split at h
  · cases h
  · cases h
  · rename_i i o _ _
    cases hd : T.declare name name ⟨i, o⟩ s.target with
    | error e target => simp [hd] at h
    | ok function target =>
      simp only [hd] at h
      cases h
      exact ⟨⟨i, o⟩, function, target, hd, rfl⟩

/-- A declaration that is turned down has a letter that names no type, or the target refuses it. -/
theorem declare_eq_error {name : String} {inputs outputs : List String} {s s' : Session T}
    {e : CompileError} (h : declare name inputs outputs s = .error e s') :
    ∃ target, s' = { s with mode := .definingExternal, target } ∧
      ((∃ code, e = .arity name (.unknownType code)) ∧ target = s.target ∨
        ∃ signature, T.declare name name signature s.target = .error e target) := by
  rw [declare_eq] at h
  split at h
  · rename_i hi
    cases h
    exact ⟨s.target, rfl, .inl ⟨ofCodes_error hi, rfl⟩⟩
  · rename_i ho
    cases h
    exact ⟨s.target, rfl, .inl ⟨ofCodes_error ho, rfl⟩⟩
  · rename_i i o _ _
    cases hd : T.declare name name ⟨i, o⟩ s.target with
    | ok function target => simp [hd] at h
    | error e' target =>
      simp only [hd] at h
      cases h
      exact ⟨target, rfl, .inr ⟨⟨i, o⟩, hd⟩⟩

end Session
end StackEffect
