import StackEffect.Proofs.Recording
import StackEffect.Proofs.Session.History

/-!
The code for the definitions of a session. Any target that has functions for the words of the session
is asked once for each node of a definition that is no shuffle (`recorded_of_defines`).
-/
namespace StackEffect.Session
variable {T : Target} {s : Session T} {d : Definition}

/-- The definition belongs to a word of the session, or is what the session makes of a body. -/
inductive Defines (s : Session T) : Definition → Prop
  | word {id : WordId} {w : Word} {d : Definition} : s.dictionary.word? id = some w →
      w.kind = .compiled d → Defines s d
  | body {name : String} {body : List Token} {draft : Draft} :
      readBody s.dictionary body {} = .ok () draft → Defines s (draft.toDefinition name body)

theorem Reachable.sound_of_defines {target : T.State} (h : Reachable target s) (hd : s.Defines d) :
    d.Sound s.dictionary.vocabulary := by
  cases hd with
  | word hw hk => exact h.sound.compiled hw hk
  | body hread => exact sound_toDefinition h.sound hread

theorem Reachable.function_of_call {target : T.State} (h : Reachable target s) (hd : s.Defines d)
    {id : NodeId} {n : Node} {callee : Callee} (hn : d.graph.node? id = some n)
    (hk : n.kind = .call callee) : ((s.functions[callee.word]?).join).isSome = true := by
  obtain ⟨entries, hhistory⟩ := h.exists_history
  have hword := (h.sound_of_defines hd).graph.words hn
  rw [hk] at hword
  obtain ⟨w, hw, hu, -⟩ := hword
  exact (hhistory.settled.filled hw).mpr hu

/-- Whatever the target for which the code of a definition is generated, between the begin and the end
of the body it is asked once for each node that is no shuffle, in the order of their creation; it gets
what it has answered for the origins of the inputs, the arguments with their final types, and at the
end what it has answered for the origins of the outputs. Otherwise its last answer was an error or not
as many operands as declared. -/
theorem recorded_of_defines {target : T.State} (h : Reachable target s) (hd : s.Defines d)
    {T' : Target} {functions : FunctionTable T'}
    (hfunctions : ∀ id : WordId, ((s.functions[id]?).join).isSome = true →
      ((functions[id]?).join).isSome = true)
    (function : T'.Function) (t : T'.State) :
    match d.compile (T := T'.recorded) function functions (t, []) with
    | .ok cache (t', log) => d.compile function functions t = .ok cache t' ∧
        d.Recorded function functions log
    | .error fault (t', log) => d.compile function functions t = .error fault t' ∧
        d.graph.Failed functions fault log := by
  have hsound := h.sound_of_defines hd
  have hcallees : ∀ {id n callee}, d.graph.node? id = some n → n.kind = .call callee →
      (functions[callee.word]?).join ≠ none := by
    intro id n callee hn hk
    exact Option.isSome_iff_ne_none.mp (hfunctions _ (h.function_of_call hd hn hk))
  have hrecord := Definition.recorded_compile hsound.graph.ordered (fun _ => hsound.outputs) hcallees
    function (t, [])
  have hplain := d.erases_compile function functions (t, [])
  cases hc : d.compile (T := T'.recorded) function functions (t, []) with
  | ok cache s' =>
    rw [hc] at hrecord hplain
    obtain ⟨log, hlog, hrecorded⟩ := hrecord
    rw [List.nil_append] at hlog
    exact ⟨hplain, hlog ▸ hrecorded⟩
  | error fault s' =>
    rw [hc] at hrecord hplain
    exact ⟨hplain, hrecord⟩

def mover : Session Machine.target := ofText ": sq dup * ; : f over sq swap drop i>f ;"

/-- The body of `f`; the use of its second argument by `sq` gives that a type. -/
def moved : Definition where
  name := "f"
  graph.nodes := #[
    ⟨.argument 0 .any, []⟩,
    ⟨.argument 1 .any, []⟩,
    ⟨.primitive (.shuffle .copyOver), [⟨1, 0⟩, ⟨0, 0⟩]⟩,
    ⟨.call ⟨23, "sq", ⟨[.int32], [.int32]⟩⟩, [⟨2, 2⟩]⟩,
    ⟨.primitive (.shuffle .swap), [⟨2, 1⟩, ⟨3, 0⟩]⟩,
    ⟨.primitive (.shuffle .drop), [⟨4, 1⟩]⟩,
    ⟨.primitive (.cast .intToFloat), [⟨4, 0⟩]⟩]
  graph.bindings := [(1, .int32)]
  arguments := [0, 1]
  outputs := [⟨2, 0⟩, ⟨6, 0⟩]
  source := ["over", "sq", "swap", "drop", "i>f"]

/-- The machine is asked for two arguments, a call and a cast, between the begin and the end. -/
theorem recorded_moved : ∃ cache m log,
    mover.dictionary.word? 24 = some (.compiled "f" moved) ∧
    moved.compile (T := Machine.target) (1 : Nat) mover.functions mover.target = .ok cache m ∧
    moved.Recorded (T := Machine.target) (1 : Nat) mover.functions log ∧ log.length = 6 := by
  have hw : mover.dictionary.word? 24 = some (.compiled "f" moved) := by decide +kernel
  have hlength : (match moved.compile (T := Machine.target.recorded) (1 : Nat) mover.functions
      (mover.target, []) with
      | .ok _ s => s.2.length
      | .error .. => 0) = 6 := by decide +kernel
  have hreachable : Reachable ({} : Machine) mover := reachable_ofText _
  have h := recorded_of_defines hreachable (.word hw rfl) (fun _ hf => hf)
    (1 : Nat) mover.target
  cases hc : moved.compile (T := Machine.target.recorded) (1 : Nat) mover.functions
      (mover.target, []) with
  | ok cache s =>
    rw [hc] at hlength h
    exact ⟨cache, s.1, s.2, hw, h.1, h.2, hlength⟩
  | error fault s =>
    rw [hc] at hlength
    cases hlength

end StackEffect.Session
