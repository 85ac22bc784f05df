import Mathlib.Logic.Relation
import StackEffect.Proofs.Machine.Soundness

/-!
The machine step by step. An activity is what a machine is about to do, with the frames that wait for
the calls in progress; the depth of a call is how many they are. Whatever the bodies of the routines
are, a call comes to its end after finitely many steps, and the end is what the nested evaluation
says (`leads_callWithin`). Where all bodies write registers of their own only, so do the frames that
run them (`yields_advance`).
-/
namespace StackEffect
namespace Machine

/-- A body that is running: the code that is left of it, and what it has computed. -/
structure Frame where
  arguments : List Value
  registers : RegisterFile
  code : List Instruction
  outputs : List Register

/-- A frame whose next registers wait for what a routine returns. -/
structure Waiting where
  frame : Frame
  targets : List Register
  routine : RoutineId

/-- What a machine is about to do; the frame that waits for it is the first of the callers. -/
inductive Activity
  | calling (id : RoutineId) (arguments : List Value) (callers : List Waiting)
  | running (frame : Frame) (callers : List Waiting)
  | returning (results : List Value) (callers : List Waiting)

def Frame.entering (b : Body) (arguments : List Value) : Frame :=
  ⟨arguments, Array.replicate b.registers none, b.code.toList, b.outputs⟩

/-- One step of an activity. When all calls have returned, nothing is left to do. -/
def advance (routines : Array Routine) : Activity → Action String Activity
  | .calling id arguments callers =>
    if maxCallDepth < callers.length then throw (.runtime .callDepth)
    else
      match routines[id]? with
      | none => throw (.runtime (.noFunction id))
      | some routine =>
        match routine.body with
        | none => return .returning (← native routine.symbol arguments) callers
        | some body =>
          if arguments.length = routine.signature.inputArity then
            return .running (.entering body arguments) callers
          else throw (.runtime (.argumentCount routine.name arguments.length
            routine.signature.inputArity))
  | .running f callers =>
    match f.code with
    | [] => return .returning (← Action.ofExcept (f.outputs.mapM f.registers.read)) callers
    | .call targets routine inputs :: code => do
      let values ← Action.ofExcept (inputs.mapM f.registers.read)
      return .calling routine values (⟨{ f with code }, targets, routine⟩ :: callers)
    | i :: code => do
      let registers ← step (fun _ _ => pure []) f.arguments f.registers i
      return .running { f with registers, code } callers
  | .returning results [] => return .returning results []
  | .returning results (w :: callers) =>
    if results.length = w.targets.length then
      return .running { w.frame with registers := w.frame.registers.writeAll w.targets results }
        callers
    else throw (.runtime (.resultCount w.routine results.length w.targets.length))

/-! ### Calls come to an end -/

section Leads
variable (routines : Array Routine)

/-- What an activity comes to, and what has been printed by then. -/
abbrev Reaches : Activity × String → Activity × String → Prop :=
  Relation.ReflTransGen fun x y => advance routines x.1 x.2 = .ok y.1 y.2

/-- The activity comes to the one that follows the result, or to a step that fails with the error. -/
def Leads {α : Type} (x : Activity × String) (next : α → Activity) :
    EStateM.Result CompileError String α → Prop
  | .ok a out => Reaches routines x (next a, out)
  | .error e out => ∃ y, Reaches routines x y ∧ advance routines y.1 y.2 = .error e out

variable {routines} {α β : Type} {a b : Activity} {out out' : String} {next : α → Activity}

theorem Leads.head {r : EStateM.Result CompileError String α}
    (hstep : advance routines a out = .ok b out') (h : Leads routines (b, out') next r) :
    Leads routines (a, out) next r := by
  cases r with
  | ok x t => exact Relation.ReflTransGen.head hstep h
  | error e t =>
    obtain ⟨y, hreach, herror⟩ := h
    exact ⟨y, Relation.ReflTransGen.head hstep hreach, herror⟩

theorem Leads.bind {x : Action String α} {f : α → Action String β} {next' : β → Activity}
    (hx : Leads routines (a, out) next (x out))
    (hf : ∀ v out, Leads routines (next v, out) next' (f v out)) :
    Leads routines (a, out) next' ((x >>= f) out) := by
  rw [Action.bind_apply]
  cases hout : x out with
  | ok v t =>
    rw [hout] at hx
    have hrest := hf v t
    dsimp only
    cases hft : f v t with
    | ok w u =>
      rw [hft] at hrest
      exact hx.trans hrest
    | error e u =>
      rw [hft] at hrest
      obtain ⟨y, hreach, herror⟩ := hrest
      exact ⟨y, hx.trans hreach, herror⟩
  | error e t =>
    rw [hout] at hx
    exact hx

theorem Leads.step {x : Action String α}
    (h : advance routines a = x >>= fun v => pure (next v)) (out : String) :
    Leads routines (a, out) next (x out) := by
  cases hout : x out with
  | ok v t =>
    refine .single ?_
    simp only [h]
    exact Action.bind_of_ok hout _
  | error e t =>
    refine ⟨(a, out), .refl, ?_⟩
    simp only [h]
    exact Action.bind_of_error hout _

end Leads

section Calls
variable {routines : Array Routine}

theorem leads_instruction {call : RoutineId → List Value → Action String (List Value)}
    {callers : List Waiting} (f : Frame) {i : Instruction} {code : List Instruction}
    (hcode : f.code = i :: code)
    (hcall : ∀ id arguments (w : Waiting) out, Leads routines
      (.calling id arguments (w :: callers), out) (.returning · (w :: callers))
      (call id arguments out)) (out : String) :
    Leads routines (.running f callers, out)
      (fun registers => .running { f with registers, code } callers)
      (step call f.arguments f.registers i out) := by
  have hplain (h : ∀ call', advance routines (.running f callers) =
      Machine.step call' f.arguments f.registers i >>= fun registers =>
        pure (.running { f with registers, code } callers)) :
      Leads routines (.running f callers, out)
        (fun registers => .running { f with registers, code } callers)
        (Machine.step call f.arguments f.registers i out) := Leads.step (h call) out
  cases i with
  | argument target index => exact hplain fun _ => by rw [advance, hcode]; rfl
  | constant target value => exact hplain fun _ => by rw [advance, hcode]; rfl
  | binary target op left right => exact hplain fun _ => by rw [advance, hcode]; rfl
  | cast target c source => exact hplain fun _ => by rw [advance, hcode]; rfl
  | call targets routine inputs =>
    let w : Waiting := ⟨{ f with code }, targets, routine⟩
    have hread : Leads routines (.running f callers, out)
        (fun values => .calling routine values (w :: callers))
        (Action.ofExcept (inputs.mapM f.registers.read) out) :=
      .step (by rw [advance, hcode]) out
    refine hread.bind fun values out => .bind (hcall routine values w out) fun results out => ?_
    refine .step ?_ out
    rw [advance]
    split <;> rfl

/-- The code of a frame runs until it is over. -/
theorem leads_code {call : RoutineId → List Value → Action String (List Value)}
    {callers : List Waiting}
    (hcall : ∀ id arguments (w : Waiting) out, Leads routines
      (.calling id arguments (w :: callers), out) (.returning · (w :: callers))
      (call id arguments out)) (f : Frame) (out : String) :
    Leads routines (.running f callers, out)
      (fun registers => .running { f with registers, code := [] } callers)
      (f.code.foldlM (step call f.arguments) f.registers out) := by
  obtain ⟨arguments, registers, code, outputs⟩ := f
  induction code generalizing registers out with
  | nil => exact .refl
  | cons i code ih =>
    rw [List.foldlM_cons]
    exact .bind (leads_instruction ⟨arguments, registers, i :: code, outputs⟩ rfl hcall out)
      fun registers out => ih out registers

/-- A call takes the steps that lead to its results or to its error. -/
theorem leads_callWithin {depth : Nat} (id : RoutineId) (arguments : List Value)
    {callers : List Waiting} (hdepth : callers.length + depth = maxCallDepth + 1) (out : String) :
    Leads routines (.calling id arguments callers, out) (.returning · callers)
      (callWithin routines depth id arguments out) := by
  induction depth generalizing id arguments callers out with
  | zero =>
    refine ⟨_, .refl, ?_⟩
    have hdeep : maxCallDepth < callers.length := by omega
    simp only [advance, if_pos hdeep]
    rfl
  | succ depth ih =>
    have hshallow : ¬maxCallDepth < callers.length := by omega
    have hfails {e : CompileError} (h : callWithin routines (depth + 1) id arguments = throw e)
        (hadvance : advance routines (.calling id arguments callers) = throw e) :
        Leads routines (.calling id arguments callers, out) (.returning · callers)
          (callWithin routines (depth + 1) id arguments out) := by
      rw [h]
      exact ⟨_, .refl, by rw [hadvance]; rfl⟩
    cases hr : routines[id]? with
    | none => exact hfails (callWithin_none hr _ _) (by rw [advance, if_neg hshallow, hr])
    | some routine =>
      cases hb : routine.body with
      | none =>
        rw [callWithin_native hr hb]
        exact .step (by simp only [advance, if_neg hshallow, hr, hb]) out
      | some body =>
        by_cases hl : arguments.length = routine.signature.inputArity
        · rw [callWithin_body hr hb depth hl]
          have henter : advance routines (.calling id arguments callers) out =
              .ok (.running (.entering body arguments) callers) out := by
            simp only [advance, if_neg hshallow, hr, hb, if_pos hl]
            rfl
          refine .head henter (.bind (leads_code (fun id arguments w out => ?_) _ out)
            fun registers out => ?_)
          · exact ih id arguments (by rw [List.length_cons]; omega) out
          · exact .step rfl out
        · exact hfails (callWithin_count hr hb depth hl)
            (by simp only [advance, if_neg hshallow, hr, hb, if_neg hl])

end Calls

/-! ### No write is out of range -/

/-- What is left of the code writes registers of the frame. -/
def Frame.InBounds (f : Frame) : Prop := ∀ i ∈ f.code, ∀ r ∈ i.targets, r < f.registers.size

/-- So does a frame that waits, and the registers that it waits with are its own. -/
structure Waiting.InBounds (w : Waiting) : Prop where
  frame : w.frame.InBounds
  targets : ∀ r ∈ w.targets, r < w.frame.registers.size

/-- Each write that is to come finds its register. -/
def Activity.InBounds : Activity → Prop
  | .running f callers => f.InBounds ∧ ∀ w ∈ callers, w.InBounds
  | .calling _ _ callers | .returning _ callers => ∀ w ∈ callers, w.InBounds

end Machine

def Body.InBounds (b : Body) : Prop := ∀ i ∈ b.code, ∀ r ∈ i.targets, r < b.registers

/-- An error of code that runs, and not of code that is generated. -/
def CompileError.IsRuntime (e : CompileError) : Prop := ∃ fault, e = .runtime fault

@[simp] theorem RegisterFile.size_writeAll (rs : RegisterFile) (targets : List Register)
    (values : List Value) : (rs.writeAll targets values).size = rs.size := by
  unfold writeAll
  induction targets.zip values generalizing rs with
  | nil => rfl
  | cons x xs ih => rw [List.foldl_cons, ih, size_write]

namespace Machine

theorem runtime_ofExcept {α : Type} {r : Except CompileError α}
    (h : ∀ e, r = .error e → e.IsRuntime) :
    (Action.ofExcept r : Action String α).Yields (fun _ => True) CompileError.IsRuntime := by
  cases r with
  | ok a => exact .pure trivial
  | error e => exact .throw (h e rfl)

theorem runtime_read {rs : RegisterFile} {r : Register} (e : CompileError)
    (h : rs.read r = .error e) : e.IsRuntime := by
  unfold RegisterFile.read at h
  split at h <;> cases h
  exact ⟨_, rfl⟩

theorem runtime_readAll {rs : RegisterFile} {registers : List Register} (e : CompileError)
    (h : registers.mapM rs.read = .error e) : e.IsRuntime := by
  obtain ⟨r, -, hr⟩ := Except.exists_of_mapM_eq_error h
  exact runtime_read e hr

theorem runtime_native (symbol : String) (arguments : List Value) :
    (native symbol arguments).Yields (fun _ => True) CompileError.IsRuntime := by
  refine (yields_native symbol arguments).imp (fun _ _ => trivial) fun e he => ?_
  cases e with
  | runtime fault => exact ⟨fault, rfl⟩
  | _ => exact he.elim

theorem yields_step {call : RoutineId → List Value → Action String (List Value)}
    (hcall : ∀ id arguments, (call id arguments).Yields (fun _ => True) CompileError.IsRuntime)
    (arguments : List Value) (rs : RegisterFile) (i : Instruction) :
    (step call arguments rs i).Yields (·.size = rs.size) CompileError.IsRuntime := by
  cases i with
  | argument target index => exact .pure (RegisterFile.size_write ..)
  | constant target value => exact .pure (RegisterFile.size_write ..)
  | binary target op left right =>
    exact .bind (runtime_ofExcept runtime_read) fun left _ =>
      .bind (runtime_ofExcept runtime_read) fun right _ =>
        .bind (runtime_ofExcept fun _ => BinaryOp.apply_error) fun _ _ =>
          .pure (RegisterFile.size_write ..)
  | cast target c source =>
    exact .bind (runtime_ofExcept runtime_read) fun value _ =>
      .bind (runtime_ofExcept fun _ => Cast.apply_error) fun _ _ =>
        .pure (RegisterFile.size_write ..)
  | call targets routine inputs =>
    refine .bind (runtime_ofExcept runtime_readAll) fun values _ =>
      .bind (hcall routine values) fun results _ => ?_
    split_ifs
    · exact .pure (RegisterFile.size_writeAll ..)
    · exact .throw ⟨_, rfl⟩

theorem Frame.InBounds.tail {f : Frame} (hf : f.InBounds) {i : Instruction}
    {code : List Instruction} (hcode : f.code = i :: code) {registers : RegisterFile}
    (hsize : registers.size = f.registers.size) : ({ f with registers, code } : Frame).InBounds := by
  intro j hj r hr
  rw [hsize]
  exact hf j (hcode ▸ List.mem_cons_of_mem i hj) r hr

theorem Frame.inBounds_entering {b : Body} (hb : b.InBounds) (arguments : List Value) :
    (Frame.entering b arguments).InBounds := by
  intro i hi r hr
  simpa [entering] using hb i (Array.mem_toList_iff.mp hi) r hr

/-- Where all bodies write registers that they have, so does each step, and it fails at run time
only. -/
theorem yields_advance {routines : Array Routine}
    (hbodies : ∀ routine ∈ routines, ∀ b, routine.body = some b → b.InBounds) {a : Activity}
    (ha : a.InBounds) :
    (advance routines a).Yields Activity.InBounds CompileError.IsRuntime := by
  cases a with
  | calling id arguments callers =>
    rw [advance]
    split_ifs with hdepth
    · exact .throw ⟨_, rfl⟩
    · cases hr : routines[id]? with
      | none => exact .throw ⟨_, rfl⟩
      | some routine =>
        cases hb : routine.body with
        | none =>
          simp only [hb]
          exact .bind (runtime_native _ _) fun _ _ => .pure ha
        | some b =>
          simp only [hb]
          split_ifs with hcount
          · have hin := hbodies routine (Array.mem_of_getElem? hr) b hb
            exact .pure ⟨Frame.inBounds_entering hin arguments, ha⟩
          · exact .throw ⟨_, rfl⟩
  | running f callers =>
    obtain ⟨hf, hcallers⟩ := ha
    have hplain {i : Instruction} {code : List Instruction} (hcode : f.code = i :: code) :
        (step (fun _ _ => pure []) f.arguments f.registers i >>= fun registers =>
          pure (.running { f with registers, code } callers)).Yields
          Activity.InBounds CompileError.IsRuntime :=
      .bind (yields_step (fun _ _ => .pure trivial) _ _ _) fun registers hsize =>
        .pure ⟨hf.tail hcode hsize, hcallers⟩
    rw [advance]
    split
    · exact .bind (runtime_ofExcept runtime_readAll) fun _ _ => .pure hcallers
    · rename_i targets routine inputs code hcode
      refine .bind (runtime_ofExcept runtime_readAll) fun values _ => .pure ?_
      intro w hw
      rcases List.mem_cons.mp hw with rfl | hw
      · have hi : .call targets routine inputs ∈ f.code := by simp [hcode]
        exact ⟨hf.tail hcode rfl, hf _ hi⟩
      · exact hcallers w hw
    · rename_i hcode
      exact hplain hcode
  | returning results callers =>
    cases callers with
    | nil => exact .pure ha
    | cons w callers =>
      obtain ⟨hw, hcallers⟩ := List.forall_mem_cons.mp ha
      rw [advance]
      split_ifs
      · refine .pure ⟨fun i hi r hr => ?_, hcallers⟩
        rw [RegisterFile.size_writeAll]
        exact hw.frame i hi r hr
      · exact .throw ⟨_, rfl⟩

/-- All that a call comes to writes registers that are there. -/
theorem inBounds_of_reaches {routines : Array Routine}
    (hbodies : ∀ routine ∈ routines, ∀ b, routine.body = some b → b.InBounds)
    {x y : Activity × String} (hx : x.1.InBounds) (h : Reaches routines x y) : y.1.InBounds := by
  induction h with
  | refl => exact hx
  | tail _ hstep ih => exact (yields_advance hbodies ih).ok hstep

end Machine
end StackEffect
