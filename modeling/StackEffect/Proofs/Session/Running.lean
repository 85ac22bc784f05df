import StackEffect.Proofs.Session.Effect

/-!
Operations on a runtime stack. What a definition means is what its operations do to a stack when each
of them takes what it needs off the stack and pushes what it answers (`Operation.meaning_eq`), so that
operations may be exchanged for others that do the same (`Operation.runAll_exchange`).
-/
namespace StackEffect
namespace Operation
variable {V : Vocabulary} {calls : Calls} {op : Operation} {ops : List Operation} {d e : Draft}
  {values rest stack current : List Value} {position start : Nat} {u : Unit}

/-- Takes the values that an operation needs off a stack and pushes what it answers. -/
def effect (calls : Calls) (op : Operation) (stack : List Value) : Action String (List Value) := do
  let results ← op.run calls (stack.take op.demands.length)
  return results.reverse ++ stack.drop op.demands.length

def runAll (calls : Calls) (ops : List Operation) (stack : List Value) :
    Action String (List Value) :=
  ops.foldlM (fun stack op => op.effect calls stack) stack

theorem effect_append (hl : values.length = op.demands.length) (rest : List Value) :
    op.effect calls (values ++ rest) = (do return (← op.run calls values).reverse ++ rest) := by
  rw [effect, ← hl, List.take_left, List.drop_left]

theorem runAll_cons (op : Operation) (ops : List Operation) (stack : List Value) :
    runAll calls (op :: ops) stack = op.effect calls stack >>= runAll calls ops := List.foldlM_cons

theorem runAll_append (ops more : List Operation) (stack : List Value) :
    runAll calls (ops ++ more) stack = runAll calls ops stack >>= runAll calls more :=
  List.foldlM_append

/-- An operation that has been read finds what it takes, and does to the stack what its nodes do to
the draft. -/
theorem Sound.tracks_read (hop : op.Sound V) (hcounted : calls.Counted) (hd : d.Sound V)
    (hread : op.read position d = .ok u e) {before out : String} {v : Valuation}
    (htracks : d.Tracks calls stack before v current out) (hsize : e.arguments.size ≤ stack.length) :
    (∃ values rest, current = values ++ rest ∧ values.length = op.demands.length) ∧
      match op.effect calls current out with
      | .ok current' out' => ∃ v', e.Tracks calls stack before v' current' out'
      | .error fault out' => e.graph.evaluate calls stack before = .error fault out' := by
  obtain ⟨os, d₁, hpop, hperforms⟩ := hop.performs hcounted hd hread
  rw [hperforms.arguments] at hsize
  obtain ⟨values, rest, rfl, hl⟩ := htracks.exists_append hpop hsize
  obtain ⟨v₁, htracks₁, hreads, -⟩ := htracks.popAll hl hpop
  have hpushes := hperforms.pushes htracks₁ hreads
  refine ⟨⟨values, rest, rfl, hl⟩, ?_⟩
  rw [effect_append hl, Action.bind_apply]
  cases hrun : op.run calls values out with
  | ok results out' =>
    simp only [hrun] at hpushes
    exact hpushes
  | error fault out' =>
    simp only [hrun] at hpushes
    exact hpushes

theorem tracks_readAll (hops : ∀ op ∈ ops, op.Sound V) (hcounted : calls.Counted) (hd : d.Sound V)
    (hread : readAll ops start d = .ok u e) {before out : String} {v : Valuation}
    (htracks : d.Tracks calls stack before v current out) (hsize : e.arguments.size ≤ stack.length) :
    match runAll calls ops current out with
    | .ok current' out' => ∃ v', e.Tracks calls stack before v' current' out'
    | .error fault out' => e.graph.evaluate calls stack before = .error fault out' := by
  induction ops generalizing d v current out start with
  | nil =>
    cases hread
    exact ⟨v, htracks⟩
  | cons op ops ih =>
    obtain ⟨_, d₁, h₁, hrest⟩ := Action.bind_eq_ok.mp hread
    obtain ⟨hop, hops⟩ := List.forall_mem_cons.mp hops
    obtain ⟨sound₁, -⟩ := hop.read hd h₁
    obtain ⟨-, grows⟩ := sound_readAll hops sound₁ hrest
    obtain ⟨-, hfirst⟩ := hop.tracks_read hcounted hd h₁ htracks (Nat.le_trans grows.size_le hsize)
    rw [runAll_cons, Action.bind_apply]
    cases heffect : op.effect calls current out with
    | error fault out' =>
      simp only [heffect] at hfirst
      exact grows.graph.evaluate_error hfirst
    | ok current' out' =>
      simp only [heffect] at hfirst
      obtain ⟨v₁, htracks₁⟩ := hfirst
      exact ih hops sound₁ hrest htracks₁

/-- What a definition means is what its operations do to a stack, and what lies below stays. -/
theorem runAll_eq (hops : ∀ op ∈ ops, op.Sound V) (hcounted : calls.Counted)
    (hread : readAll ops 0 {} = .ok u d) (hl : values.length = d.arguments.size)
    (rest : List Value) (name : String) (body : List Token) :
    runAll calls ops (values ++ rest) =
      (do return (← (d.toDefinition name body).meaning calls values).reverse ++ rest) := by
  funext out
  obtain ⟨hd, -⟩ := sound_readAll hops (.empty V) hread
  have hsize : d.arguments.size ≤ (values ++ rest).length := by
    rw [List.length_append, hl]
    exact Nat.le_add_right _ _
  have hrun := tracks_readAll hops hcounted (.empty V) hread
    (.empty calls (values ++ rest) out) hsize
  have hgraph : (d.toDefinition name body).graph = d.graph := rfl
  rw [Definition.meaning, hgraph, ← hd.evaluate_append calls hl rest]
  simp only [Action.bind_apply]
  cases hall : runAll calls ops (values ++ rest) out with
  | error fault out' =>
    simp only [hall] at hrun
    rw [hrun]
  | ok current out' =>
    simp only [hall] at hrun
    obtain ⟨v, htracks⟩ := hrun
    rw [htracks.evaluated, htracks.current_eq, ← hl, List.drop_left]
    rfl

theorem meaning_eq (hops : ∀ op ∈ ops, op.Sound V) (hcounted : calls.Counted)
    (hread : readAll ops 0 {} = .ok u d) (hl : values.length = d.arguments.size)
    (name : String) (body : List Token) : (d.toDefinition name body).meaning calls values =
      (do return (← runAll calls ops values).reverse) := by
  have hrun := runAll_eq hops hcounted hread hl [] name body
  rw [List.append_nil] at hrun
  funext out
  rw [hrun]
  simp only [Action.bind_apply]
  cases (d.toDefinition name body).meaning calls values out with
  | error fault out' => rfl
  | ok results out' => simp

theorem effect_splice {own : List Operation} {f : Draft} {name : String} {source : List Token}
    (hown : ∀ op ∈ own, op.Sound V) (hcounted : calls.Counted) (hf : readAll own 0 {} = .ok () f)
    (hl : values.length = (splice (f.toDefinition name source)).demands.length) (rest : List Value) :
    effect calls (.splice (f.toDefinition name source)) (values ++ rest) =
      runAll calls own (values ++ rest) := by
  have hsound : (f.toDefinition name source).Sound V :=
    (sound_readAll hown (.empty V) hf).1.toDefinition name source
  obtain ⟨signature, hs⟩ := hsound.exists_signature
  have harity : values.length = f.arguments.size := by
    rw [hl, demands_splice hs, Draft.size_arguments hs]
    rfl
  exact (effect_append hl rest).trans (runAll_eq hown hcounted hf harity rest name source).symm

/-- In a body a definition does what its own operations do in its place. -/
theorem runAll_splice {before after own : List Operation} {f : Draft} {name : String}
    {source : List Token}
    (hops : ∀ op ∈ before ++ .splice (f.toDefinition name source) :: after, op.Sound V)
    (hown : ∀ op ∈ own, op.Sound V) (hcounted : calls.Counted) (hf : readAll own 0 {} = .ok () f)
    (hread : readAll (before ++ .splice (f.toDefinition name source) :: after) 0 {} = .ok () d)
    (hl : d.arguments.size ≤ values.length) :
    runAll calls (before ++ .splice (f.toDefinition name source) :: after) values =
      runAll calls (before ++ own ++ after) values := by
  funext out
  obtain ⟨hbefore, hrest⟩ := List.forall_mem_append.mp hops
  obtain ⟨hsplice, hafter⟩ := List.forall_mem_cons.mp hrest
  rw [readAll_append] at hread
  obtain ⟨_, d₁, h₁, hread⟩ := Action.bind_eq_ok.mp hread
  obtain ⟨_, d₂, h₂, h₃⟩ := Action.bind_eq_ok.mp hread
  obtain ⟨sound₁, -⟩ := sound_readAll hbefore (.empty V) h₁
  obtain ⟨sound₂, grows₂⟩ := hsplice.read sound₁ h₂
  obtain ⟨-, grows₃⟩ := sound_readAll hafter sound₂ h₃
  have hsize₂ := Nat.le_trans grows₃.size_le hl
  have hfirst := tracks_readAll hbefore hcounted (.empty V) h₁ (.empty calls values out)
    (Nat.le_trans grows₂.size_le hsize₂)
  rw [List.append_assoc, runAll_append, runAll_append, Action.bind_apply, Action.bind_apply]
  cases hrun : runAll calls before values out with
  | error fault out' => rfl
  | ok current out' =>
    simp only [hrun] at hfirst
    obtain ⟨v, htracks⟩ := hfirst
    obtain ⟨⟨taken, below, rfl, htaken⟩, -⟩ := hsplice.tracks_read hcounted sound₁ h₂ htracks hsize₂
    have hsame : runAll calls (.splice (f.toDefinition name source) :: after) (taken ++ below) =
        runAll calls (own ++ after) (taken ++ below) := by
      rw [runAll_cons, effect_splice hown hcounted hf htaken, runAll_append]
    exact congrFun hsame out'

/-- Operations may be exchanged for others that do the same where calls do not nest too deeply. -/
theorem runAll_exchange {ops' : List Operation} (hops : ∀ op ∈ ops, op.Sound V)
    (hcounted : calls.Counted) (hd : d.Sound V) (hread : readAll ops start d = .ok u e)
    {before out : String} {v : Valuation} (htracks : d.Tracks calls stack before v current out)
    (hsize : e.arguments.size ≤ stack.length)
    (h : List.Forall₂ (fun op op' => ∀ values rest, values.length = op.demands.length →
      (op.effect calls (values ++ rest)).Approximates (op'.effect calls (values ++ rest))) ops ops') :
    (∃ out', runAll calls ops current out = .error (.runtime .callDepth) out') ∨
      runAll calls ops' current out = runAll calls ops current out := by
  induction h generalizing d v current out start with
  | nil => exact .inr rfl
  | @cons op op' ops ops' hexchange _ ih =>
    obtain ⟨_, d₁, h₁, hrest⟩ := Action.bind_eq_ok.mp hread
    obtain ⟨hop, hops⟩ := List.forall_mem_cons.mp hops
    obtain ⟨sound₁, -⟩ := hop.read hd h₁
    obtain ⟨-, grows⟩ := sound_readAll hops sound₁ hrest
    obtain ⟨⟨values, rest, rfl, hl⟩, hfirst⟩ :=
      hop.tracks_read hcounted hd h₁ htracks (Nat.le_trans grows.size_le hsize)
    rw [runAll_cons, runAll_cons]
    rcases hexchange values rest hl out with ⟨out', hdepth⟩ | heq
    · exact .inl ⟨out', Action.bind_of_error hdepth _⟩
    · rw [Action.bind_apply, Action.bind_apply, heq]
      cases heffect : op.effect calls (values ++ rest) out with
      | error fault out' => exact .inr rfl
      | ok current' out' =>
        simp only [heffect] at hfirst
        obtain ⟨v₁, htracks₁⟩ := hfirst
        exact ih hops sound₁ hrest htracks₁

theorem approximates_meaning {V' : Vocabulary} {ops' : List Operation} {d' : Draft}
    (hops : ∀ op ∈ ops, op.Sound V) (hops' : ∀ op ∈ ops', op.Sound V') (hcounted : calls.Counted)
    (hread : readAll ops 0 {} = .ok () d) (hread' : readAll ops' 0 {} = .ok () d')
    (hsize : d'.arguments.size = d.arguments.size) (hl : values.length = d.arguments.size)
    (h : List.Forall₂ (fun op op' => ∀ values rest, values.length = op.demands.length →
      (op.effect calls (values ++ rest)).Approximates (op'.effect calls (values ++ rest))) ops ops')
    (name : String) (body : List Token) :
    ((d.toDefinition name body).meaning calls values).Approximates
      ((d'.toDefinition name body).meaning calls values) := by
  rw [meaning_eq hops hcounted hread hl, meaning_eq hops' hcounted hread' (hl.trans hsize.symm)]
  intro out
  have hexchange := runAll_exchange hops hcounted (.empty V) hread (.empty calls values out)
    (Nat.le_of_eq hl.symm) h
  rcases hexchange with ⟨out', hdepth⟩ | heq
  · exact .inl ⟨out', Action.bind_of_error hdepth _⟩
  · exact .inr (by rw [Action.bind_apply, Action.bind_apply, heq])

end Operation
end StackEffect
