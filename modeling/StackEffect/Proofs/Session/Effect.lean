import StackEffect.Proofs.Draft.Constraint
import StackEffect.Proofs.Session.Typing

/-!
What a token of a body does, whether it is read or executed: it takes values of certain types off the
stack and pushes what it computes from them (`Does`). Reading a token pops what the token takes and
adds nodes that push what it gives (`does_of_readToken`).
-/
namespace StackEffect

/-- The nodes by which `later` is ahead of `d` push what `run` answers for the values of `os`. -/
structure Draft.Performs (calls : Calls) (os : List Output)
    (run : List Value → Action String (List Value)) (d later : Draft) : Prop where
  grows : d.Grows later
  arguments : later.arguments = d.arguments
  bindings : later.graph.bindings = d.graph.bindings
  pushes : ∀ {stack before v values rest out}, d.Tracks calls stack before v rest out →
    v.Reads os values →
    match run values out with
    | .ok results out' => ∃ v', later.Tracks calls stack before v' (results.reverse ++ rest) out'
    | .error fault out' => later.graph.evaluate calls stack before = .error fault out'

theorem Draft.performs_extend {calls : Calls} {d : Draft} {os inputs : List Output}
    {kind : NodeKind} {run : List Value → Action String (List Value)} (hcounted : calls.Counted)
    (hk : ∀ index type, kind ≠ .argument index type) (hgrows : d.Grows (d.extend kind inputs))
    (hrun : ∀ {v : Valuation} {values}, v.Reads os values → ∃ operands, v.Reads inputs operands ∧
      ∀ stack, run values = kind.eval calls stack operands) :
    d.Performs calls os run (d.extend kind inputs) where
  grows := hgrows
  arguments := rfl
  bindings := rfl
  pushes {stack before v values rest out} h hreads := by
    obtain ⟨operands, hoperands, heval⟩ := hrun hreads
    have hnode := @Tracks.extend _ _ _ _ _ _ _ _ kind inputs h hoperands
    have hcount := @NodeKind.eval_counted calls kind stack operands hcounted
      (fun {index type} hkind => absurd hkind (hk index type)) out
    rw [heval stack]
    cases he : kind.eval calls stack operands out with
    | error fault out' => simpa only [he] using hnode
    | ok results out' =>
      simp only [he] at hnode hcount
      exact ⟨_, hnode hcount.1⟩

theorem Draft.performs_literal {V : Vocabulary} {calls : Calls} {d : Draft} (hcounted : calls.Counted)
    (hd : d.Sound V) (value : Value) :
    d.Performs calls [] (fun _ => pure [value]) (d.extend (.literal value) []) := by
  have hk : V.Has (.literal value) := trivial
  exact performs_extend hcounted (by simp) (hd.extend hk (by simp) .nil).2
    fun _ => ⟨[], .nil, fun _ => rfl⟩

theorem Draft.performs_primitive {V : Vocabulary} {calls : Calls} {d : Draft} {os : List Output}
    {p : Primitive} (hcounted : calls.Counted) (hp : p.Regular) (hd : d.Sound V)
    (accepts : List.Forall₂ d.graph.Accepts (List.replicate p.inputArity p.operandType) os) :
    d.Performs calls os (fun values => Action.ofExcept (p.eval values.reverse))
      (d.extend (.primitive p) os.reverse) := by
  have hk : V.Has (.primitive p) := hp
  exact performs_extend hcounted (by simp) (hd.extend hk (by simp) (accepts_primitive accepts)).2
    fun hreads => ⟨_, List.forall₂_reverse_iff.mpr hreads, fun _ => rfl⟩

/-- What an operation answers for the values that it takes. -/
def Operation.run (calls : Calls) : Operation → List Value → Action String (List Value)
  | literal value => fun _ => pure [value]
  | primitive p => fun values => Action.ofExcept (p.eval values.reverse)
  | call callee => calls callee
  | splice f => f.meaning calls

/-- Reading an operation pops what it takes and adds nodes that push what it answers. -/
theorem Operation.Sound.performs {V : Vocabulary} {calls : Calls} {op : Operation} {position : Nat}
    {d e : Draft} {u : Unit} (hop : op.Sound V) (hcounted : calls.Counted) (hd : d.Sound V)
    (h : op.read position d = .ok u e) :
    ∃ os d₁, Draft.popAll op.demands op.word position d = .ok os d₁ ∧
      d₁.Performs calls os (op.run calls) e := by
  cases op with
  | literal value =>
    obtain ⟨n, h⟩ := Action.discard_eq_ok.mp h
    rw [Draft.literal_apply] at h
    cases h
    exact ⟨[], d, rfl, Draft.performs_literal hcounted hd value⟩
  | primitive p =>
    obtain ⟨n, h⟩ := Action.discard_eq_ok.mp h
    obtain ⟨os, d₁, hpop, -, rfl⟩ := Draft.apply_eq_ok.mp h
    obtain ⟨sound, -, accepts⟩ := hd.popAll hpop
    exact ⟨os, d₁, hpop, Draft.performs_primitive hcounted hop sound accepts⟩
  | call callee =>
    obtain ⟨n, h⟩ := Action.discard_eq_ok.mp h
    obtain ⟨os, d₁, hpop, -, rfl⟩ := Draft.call_eq_ok.mp h
    obtain ⟨sound, -, accepts⟩ := hd.popAll hpop
    have hk : V.Has (.call callee) := hop
    refine ⟨os, d₁, hpop, ?_⟩
    exact Draft.performs_extend hcounted (by simp) (sound.extend hk (by simp) accepts).2
      fun hreads => ⟨_, hreads, fun _ => rfl⟩
  | splice f =>
    have hf : f.Sound V := hop
    obtain ⟨s, os, d₁, copies, d₂, results, hs, hpop, hc, hr, rfl⟩ :=
      Definition.inlineInto_eq_ok (fun _ hn => hf.graph.ordered.length_of_mem hn) h
    obtain ⟨sound, -, accepts⟩ := hd.popAll hpop
    have hinputs := (Definition.signature_eq_ok.mp hs).1
    obtain ⟨-, grows, -⟩ := hc.sound hf sound hinputs accepts (List.append_nil _).symm
    refine ⟨os, d₁, ?_, ⟨grows.graph, grows.arguments⟩, hc.arguments_eq, hc.bindings_eq,
      fun {stack before v values rest out} htracks hreads => ?_⟩
    · rw [demands_splice hs]
      exact hpop
    · have hl : values.length = f.arguments.length := by
        rw [← hreads.length_eq, Draft.length_popAll hpop, hinputs.length_eq]
      exact htracks.splice hf hcounted hreads hl hc hr

theorem Draft.Performs.admits {V : Vocabulary} {calls : Calls} {os : List Output}
    {run : List Value → Action String (List Value)} {d later : Draft}
    (h : d.Performs calls os run later) (hd : d.Sound V) (hlater : later.Sound V)
    {stack : List Value} (hadmits : d.graph.Admits stack) : later.graph.Admits stack := by
  intro id index declared inputs hn
  have harguments := hlater.numbered hn
  rw [h.arguments] at harguments
  obtain ⟨declared', inputs', hold⟩ := hd.argument harguments
  cases hn.symm.trans (h.grows.graph.node hold)
  obtain ⟨x, hx, hc⟩ := hadmits hold
  refine ⟨x, hx, fun type ht => hc type ?_⟩
  rw [Graph.outputType_of_argument hn, Graph.argumentType, h.bindings] at ht
  exact (Graph.outputType_of_argument hold).mpr ht

namespace Session

/-- What a token does: it takes values of the types, the top one first, and pushes what the action
answers, the last one on top. -/
inductive Does (dictionary : Dictionary) (calls : Calls) (t : Token) :
    List ValueType → (List Value → Action String (List Value)) → Prop
  | literal {value : Value} : named dictionary t = none → constant t = .ok value →
      Does dictionary calls t [] fun _ => pure [value]
  | primitive {id : WordId} {w : Word} {p : Primitive} : named dictionary t = some (id, w) →
      w.kind = .builtin (.primitive p) →
      Does dictionary calls t (List.replicate p.inputArity p.operandType) fun values =>
        Action.ofExcept (p.eval values.reverse)
  | call {id : WordId} {w : Word} {s : Signature} : named dictionary t = some (id, w) →
      w.isUser = true → w.signature = .ok s →
      Does dictionary calls t s.inputs (calls ⟨id, w.name, s⟩)
  | splice {id : WordId} {w : Word} {f : Definition} {s : Signature} :
      named dictionary t = some (id, w) → w.kind = .compiled f → f.signature = .ok s →
      Does dictionary calls t s.inputs (f.meaning calls)

/-- A literal or an operation of the language. -/
inductive Elementary (dictionary : Dictionary) (t : Token) : Prop
  | literal {value : Value} : named dictionary t = none → constant t = .ok value →
      Elementary dictionary t
  | primitive {id : WordId} {w : Word} {p : Primitive} : named dictionary t = some (id, w) →
      w.kind = .builtin (.primitive p) → Elementary dictionary t

theorem Elementary.exists_primitive {dictionary : Dictionary} {t : Token}
    (h : Elementary dictionary t) {id : WordId} {w : Word} (hn : named dictionary t = some (id, w)) :
    ∃ p, w.kind = .builtin (.primitive p) := by
  cases h with
  | literal hnone => cases hn.symm.trans hnone
  | @primitive _ _ p hsome hk =>
    cases hn.symm.trans hsome
    exact ⟨p, hk⟩

instance (dictionary : Dictionary) (t : Token) : Decidable (Elementary dictionary t) :=
  match hn : named dictionary t with
  | none =>
    match hv : constant t with
    | .ok value => .isTrue (.literal hn hv)
    | .error e => .isFalse fun h => by
      cases h with
      | literal _ hok => cases hv.symm.trans hok
      | primitive hsome => cases hn.symm.trans hsome
  | some (_, w) =>
    match hk : w.kind with
    | .builtin (.primitive p) => .isTrue (.primitive hn hk)
    | .builtin (.directive _) | .compiled _ | .external .. | .pending => .isFalse fun h => by
      obtain ⟨p, hp⟩ := h.exists_primitive hn
      cases hk.symm.trans hp

section Read
variable {dictionary : Dictionary} {calls : Calls} {t : Token} {position : Nat} {d e : Draft}
  {u : Unit}

theorem does_of_resolves {op : Operation} (hdict : dictionary.Sound)
    (h : Resolves dictionary t op) : Does dictionary calls t op.demands (op.run calls) := by
  cases h with
  | literal hn hv => exact .literal hn hv
  | primitive hn hk => exact .primitive hn hk
  | call hn hu hs => exact .call hn hu hs
  | @splice id w f hn hk hinline =>
    obtain ⟨s, hs⟩ := (hdict.compiled (word?_of_named hn) hk).exists_signature
    rw [Operation.demands_splice hs]
    exact .splice hn hk hs

/-- A token that can be read pops what it takes, and pushes what it gives. -/
theorem does_of_readToken (hdict : dictionary.Sound) (hcounted : calls.Counted)
    (hd : d.Sound dictionary.vocabulary) (h : readToken dictionary t position d = .ok u e) :
    ∃ types run word os d₁, Does dictionary calls t types run ∧
      Draft.popAll types word position d = .ok os d₁ ∧ d₁.Performs calls os run e := by
  obtain ⟨op, hop, h⟩ := readToken_eq_ok.mp h
  have hresolves := resolves_of_ok hop
  obtain ⟨os, d₁, hpop, hperforms⟩ := (sound_of_resolves hdict hresolves).performs hcounted hd h
  exact ⟨_, _, _, os, d₁, does_of_resolves hdict hresolves, hpop, hperforms⟩

end Read

end Session
end StackEffect
