import StackEffect.Proofs.Machine.Stepping
import StackEffect.Proofs.Recording

/-!
A machine in any driver's hands. Register after register, the instructions of a body write those that
were handed out to them, in whatever order a machine is given its requests
(`maintains_sequential`). So every call comes to its end and finds the registers that it writes,
whoever calls whom, and a machine that is not building a body takes no code
(`robust_of_driven`).
-/
namespace StackEffect

/-! ### Bodies -/

/-- The instructions of the body write one register after the other. -/
def Body.Sequential (b : Body) : Prop :=
  b.code.toList.flatMap Instruction.targets = List.range b.registers

namespace Body.Sequential
variable {b : Body}

theorem nodup (h : b.Sequential) : (b.code.toList.flatMap Instruction.targets).Nodup := by
  rw [h]
  exact List.nodup_range

theorem lt_registers (h : b.Sequential) {r : Register}
    (hr : r ∈ b.code.toList.flatMap Instruction.targets) : r < b.registers := by
  rw [h] at hr
  exact List.mem_range.mp hr

theorem inBounds (h : b.Sequential) : b.InBounds := fun i hi _ hr =>
  h.lt_registers (List.mem_flatMap.mpr ⟨i, Array.mem_toList_iff.mpr hi, hr⟩)

theorem grow (h : b.Sequential) {count : Nat} {i : Instruction}
    (hi : i.targets = List.range' b.registers count) : (b.grow count i).Sequential := by
  have hcode : (b.grow count i).code.toList.flatMap Instruction.targets =
      b.code.toList.flatMap Instruction.targets ++ i.targets := by
    simp [Body.grow]
  have hrange : List.range' 0 b.registers ++ List.range' (0 + b.registers) count =
      List.range' 0 (b.registers + count) := List.range'_append_1
  rw [Nat.zero_add, ← List.range_eq_range', ← List.range_eq_range'] at hrange
  rw [Body.Sequential, hcode, h, hi, hrange]
  rfl

end Body.Sequential

namespace Machine

/-! ### Requests -/

/-- All bodies write one register after the other, also the one that is not finished yet. -/
structure Sequential (m : Machine) : Prop where
  building : ∀ {b}, m.building = some b → b.Sequential
  finished : ∀ {routine}, routine ∈ m.routines → ∀ {b}, routine.body = some b → b.Sequential

theorem Sequential.of_idle {m : Machine} (hb : m.building = none)
    (h : ∀ {routine}, routine ∈ m.routines → ∀ {b}, routine.body = some b → b.Sequential) :
    m.Sequential := by
  refine ⟨fun hb' => ?_, h⟩
  rw [hb] at hb'
  cases hb'

theorem maintains_emit (count : Nat) (instruction : Register → Instruction)
    (h : ∀ r, (instruction r).targets = List.range' r count) :
    (emit count instruction).Maintains Sequential := by
  intro m hm
  cases hb : m.building with
  | none =>
    simp only [emit, hb]
    exact ⟨hm, trivial⟩
  | some b =>
    rw [emit_of_building hb]
    refine ⟨fun hb' => ?_, hm.finished⟩
    cases hb'
    exact (hm.building hb).grow (h b.registers)

theorem emit_outside {m : Machine} (h : m.building = none) (count : Nat)
    (instruction : Register → Instruction) :
    emit count instruction m = .error (.unsupported .outsideBody) m := by
  simp only [emit, h]

theorem emitPrimitive_cases (p : Primitive) (operands : List Register) :
    (∃ instruction : Register → Instruction, (∀ r, (instruction r).targets = [r]) ∧
      emitPrimitive p operands = emit 1 instruction >>= fun r => pure [r]) ∨
    emitPrimitive p operands = throw (.unsupported (.operandCount p.name operands.length)) := by
  match p, operands with
  | .binary op type, [left, right] => exact .inl ⟨_, fun _ => rfl, rfl⟩
  | .cast c, [source] => exact .inl ⟨_, fun _ => rfl, rfl⟩
  | .binary _ _, [] | .binary _ _, [_] | .binary _ _, _ :: _ :: _ :: _ => exact .inr rfl
  | .cast _, [] | .cast _, _ :: _ :: _ => exact .inr rfl
  | .shuffle _, _ => exact .inr rfl

theorem maintains_emitPrimitive (p : Primitive) (operands : List Register) :
    (emitPrimitive p operands).Maintains Sequential := by
  rcases emitPrimitive_cases p operands with ⟨instruction, htargets, h⟩ | h
  · rw [h]
    exact .bind (maintains_emit 1 instruction htargets) fun _ => .pure _
  · rw [h]
    exact .throw trivial

theorem maintains_emitCall (id : RoutineId) (arguments : List Register) :
    (emitCall id arguments).Maintains Sequential := by
  refine .bind .get fun m => ?_
  cases m.routines[id]? with
  | none => exact .throw trivial
  | some routine => exact .bind (maintains_emit _ _ fun _ => rfl) fun _ => .pure _

theorem maintains_finishBody (id : RoutineId) (outputs : List Register) :
    (finishBody id outputs).Maintains Sequential := by
  intro m hm
  cases hb : m.building with
  | none =>
    simp only [finishBody, hb]
    exact ⟨hm, trivial⟩
  | some b =>
    cases hr : m.routines[id]? with
    | none =>
      simp only [finishBody, hb, hr]
      exact ⟨.of_idle rfl hm.finished, trivial⟩
    | some routine =>
      simp only [finishBody, hb, hr]
      refine .of_idle rfl fun hmem b' hb' => ?_
      rcases Array.mem_or_eq_of_mem_setIfInBounds hmem with hold | rfl
      · exact hm.finished hold hb'
      · cases hb'
        have hsequential : b.Sequential := hm.building hb
        exact hsequential

theorem maintains_execute (id : RoutineId) (arguments : List Value) :
    (execute id arguments).Maintains Sequential := by
  intro m hm
  rw [execute_apply]
  cases callWithin m.routines (maxCallDepth + 1) id arguments m.output with
  | ok results output => exact ⟨hm.building, hm.finished⟩
  | error e output => exact ⟨⟨hm.building, hm.finished⟩, trivial⟩

theorem maintains_sequential : target.Maintains Sequential where
  declare name symbol signature m hm := by
    refine ⟨hm.building, fun hmem b hb => ?_⟩
    rcases Array.mem_push.mp hmem with hold | rfl
    · exact hm.finished hold hb
    · cases hb
  beginBody function := .modify fun m hm => ⟨fun hb => by cases hb; rfl, hm.finished⟩
  argument index type := maintains_emit 1 (.argument · index) fun _ => rfl
  literal value := maintains_emit 1 (.constant · value) fun _ => rfl
  primitive := maintains_emitPrimitive
  call := maintains_emitCall
  finishBody := maintains_finishBody
  execute := maintains_execute
  takeOutput _ hm := ⟨hm.building, hm.finished⟩

theorem sequential_of_driven {m : Machine} (h : target.Driven ({} : Machine) m) : m.Sequential :=
  h.holds maintains_sequential (.of_idle rfl fun hmem => absurd hmem (Array.not_mem_empty _))

/-! ### Calls -/

theorem Sequential.inBounds {m : Machine} (h : m.Sequential) {id : RoutineId}
    {arguments : List Value} {output : String} {y : Activity × String}
    (hy : Reaches m.routines (.calling id arguments [], output) y) : y.1.InBounds := by
  have hstart : (Activity.calling id arguments []).InBounds := List.forall_mem_nil _
  exact inBounds_of_reaches (fun _ hr _ hb => (h.finished hr hb).inBounds) hstart hy

/-- A call changes no routine, and comes to its results, or to a step that fails at run time. -/
theorem execute_cases {m : Machine} (h : m.Sequential) (id : RoutineId) (arguments : List Value) :
    (∃ results output, execute id arguments m = .ok results { m with output } ∧
      Reaches m.routines (.calling id arguments [], m.output) (.returning results [], output)) ∨
    ∃ fault output y, execute id arguments m = .error (.runtime fault) { m with output } ∧
      Reaches m.routines (.calling id arguments [], m.output) y ∧
      advance m.routines y.1 y.2 = .error (.runtime fault) output := by
  have hleads : Leads m.routines (.calling id arguments [], m.output) (.returning · [])
      (callWithin m.routines (maxCallDepth + 1) id arguments m.output) :=
    leads_callWithin id arguments (Nat.zero_add _) m.output
  rw [execute_apply]
  cases hcall : callWithin m.routines (maxCallDepth + 1) id arguments m.output with
  | ok results output =>
    rw [hcall] at hleads
    exact .inl ⟨results, output, rfl, hleads⟩
  | error e output =>
    rw [hcall] at hleads
    obtain ⟨y, hreach, herror⟩ := hleads
    obtain ⟨fault, rfl⟩ := (yields_advance (fun _ hr _ hb => (h.finished hr hb).inBounds)
      (h.inBounds hreach)).error herror
    exact .inr ⟨fault, output, y, rfl, hreach, herror⟩

/-! ### Outside bodies -/

/-- Nothing that is asked for code changes the machine, and the answer is an error. -/
structure Refuses (m : Machine) : Prop where
  argument : ∀ index type, ∃ e, target.argument index type m = .error e m
  literal : ∀ value, ∃ e, target.literal value m = .error e m
  primitive : ∀ p operands, ∃ e, target.primitive p operands m = .error e m
  call : ∀ callee operands, ∃ e, target.call callee operands m = .error e m
  finishBody : ∀ function operands, ∃ e, target.finishBody function operands m = .error e m

theorem refuses_of_building_none {m : Machine} (h : m.building = none) : m.Refuses where
  argument index type := ⟨_, emit_outside h 1 (.argument · index)⟩
  literal value := ⟨_, emit_outside h 1 (.constant · value)⟩
  primitive p operands := by
    have hprimitive : ∃ e, emitPrimitive p operands m = .error e m := by
      rcases emitPrimitive_cases p operands with ⟨instruction, -, hp⟩ | hp
      · exact ⟨_, by rw [hp, Action.bind_of_error (emit_outside h 1 instruction)]⟩
      · exact ⟨_, by rw [hp, Action.throw_apply]⟩
    exact hprimitive
  call callee operands := by
    have hcall : ∃ e, emitCall callee operands m = .error e m := by
      rw [emitCall, Action.bind_of_ok (Action.get_apply m)]
      cases m.routines[callee]? with
      | none => exact ⟨_, rfl⟩
      | some routine => exact ⟨_, Action.bind_of_error (emit_outside h _ _) _⟩
    exact hcall
  finishBody function operands := by
    have hfinish : finishBody function operands m = .error (.unsupported .bodyNotBegun) m := by
      simp only [finishBody, h]
    exact ⟨_, hfinish⟩

/-- Whatever a machine has been asked, in whatever order: the registers that the instructions of a
body write are different ones and it has them all, also while it is built. A call comes to its results
or to an error at run time, all writes up to there find their registers, and the routines are what
they were. Outside a body, code is refused and nothing changes. -/
theorem robust_of_driven {m : Machine} (h : target.Driven ({} : Machine) m) :
    (∀ b, (m.building = some b ∨ ∃ routine ∈ m.routines, routine.body = some b) →
      (b.code.toList.flatMap Instruction.targets).Nodup ∧
        ∀ r ∈ b.code.toList.flatMap Instruction.targets, r < b.registers) ∧
    (∀ id arguments,
      (∀ y, Reaches m.routines (.calling id arguments [], m.output) y → y.1.InBounds) ∧
      ((∃ results output, execute id arguments m = .ok results { m with output } ∧
          Reaches m.routines (.calling id arguments [], m.output) (.returning results [], output)) ∨
        ∃ fault output y, execute id arguments m = .error (.runtime fault) { m with output } ∧
          Reaches m.routines (.calling id arguments [], m.output) y ∧
          advance m.routines y.1 y.2 = .error (.runtime fault) output)) ∧
    (m.building = none → m.Refuses) := by
  have hm := sequential_of_driven h
  refine ⟨fun b hb => ?_, fun id arguments => ⟨fun y hy => hm.inBounds hy,
    execute_cases hm id arguments⟩, refuses_of_building_none⟩
  have hsequential : b.Sequential := by
    rcases hb with hb | ⟨routine, hr, hb⟩
    · exact hm.building hb
    · exact hm.finished hr hb
  exact ⟨hsequential.nodup, fun r => hsequential.lt_registers⟩

def pingPong : Machine where
  routines := #[
    { name := "ping", symbol := "ping", signature := ⟨[.int32], [.int32]⟩,
      body := some ⟨2, #[.argument 0 0, .call [1] 1 [0]], [1]⟩ },
    { name := "pong", symbol := "pong", signature := ⟨[.int32], [.int32]⟩,
      body := some ⟨2, #[.argument 0 0, .call [1] 0 [0]], [1]⟩ }]
  building := some ⟨1, #[.constant 0 (.int 7)], []⟩

theorem driven_pingPong : target.Driven ({} : Machine) pingPong := by
  have hstart : target.Driven ({} : Machine) ({} : Machine) := .start
  have hdeclared := (hstart.declare "ping" "ping" ⟨[.int32], [.int32]⟩).declare "pong" "pong"
    ⟨[.int32], [.int32]⟩
  have habandoned := (hdeclared.beginBody (T := target) 0).primitive (T := target)
    (.binary .mul .int32) [3, 4]
  have hping := (((habandoned.beginBody (T := target) 0).argument 0 .int32).call (T := target)
    1 [0]).finishBody (T := target) 0 [1]
  have hpong := (((hping.beginBody (T := target) 1).argument 0 .int32).call (T := target)
    0 [0]).finishBody (T := target) 1 [1]
  exact (hpong.beginBody (T := target) 9).literal (.int 7)

theorem robust_of_driven_pingPong : target.Driven ({} : Machine) pingPong ∧
    execute 0 [.int 1] pingPong = .error (.runtime .callDepth) pingPong ∧
    ∃ y, Reaches pingPong.routines (.calling 0 [.int 1] [], "") y ∧ y.1.InBounds ∧
      advance pingPong.routines y.1 y.2 = .error (.runtime .callDepth) "" := by
  obtain ⟨-, hcalls, -⟩ := robust_of_driven driven_pingPong
  obtain ⟨hbounds, hends⟩ := hcalls 0 [.int 1]
  have hdeep : (execute 0 [.int 1]).attempt pingPong = (.error (.runtime .callDepth), pingPong) := by
    decide +kernel
  have hexecute : execute 0 [.int 1] pingPong = .error (.runtime .callDepth) pingPong := by
    have hresult := Action.attempt_eq_error.mp (congrArg Prod.fst hdeep)
    rwa [hdeep] at hresult
  refine ⟨driven_pingPong, hexecute, ?_⟩
  rw [hexecute] at hends
  rcases hends with ⟨results, output, hok, -⟩ | ⟨fault, output, y, herror, hreach, hfails⟩
  · cases hok
  · cases herror
    exact ⟨y, hreach, hbounds y hreach, hfails⟩

end Machine
end StackEffect
