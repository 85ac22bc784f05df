import StackEffect.Proofs.Definition.Flow
import StackEffect.Proofs.Flow.Hiding
import StackEffect.Proofs.Session.Typing

/-!
The flow of a body, operation by operation. An operation can be read where its flow can follow, and
then the draft has the flow of both (`Operation.flow_readAll`). A body that has a flow by itself has it
wherever it is read (`Flow.andThen_along`), and a body whose operations show more of the origins of
what they leave can be read wherever the body can (`Flow.Hides.along`).
-/
namespace StackEffect

def Source.arguments (count : Nat) : List Source := (List.range count).map .taken

theorem Source.map_via_arguments (sources : List Source) :
    (arguments sources.length).map (·.via sources) = sources := by
  apply List.ext_getElem?
  intro index
  by_cases h : index < sources.length
  · simp [arguments, h, via]
  · simp [arguments, h]

theorem Source.within_of_mem_arguments {s : Source} {count : Nat} (h : s ∈ arguments count) :
    s.Within count := by
  obtain ⟨index, hi, rfl⟩ := List.mem_map.mp h
  exact List.mem_range.mp hi

theorem NodeKind.within_of_mem_leaves {kind : NodeKind} {inputs : List Source} {s : Source}
    {count : Nat} (hk : ∀ number type, kind ≠ .argument number type)
    (hinputs : ∀ s ∈ inputs, s.Within count) (h : s ∈ kind.leaves inputs) : s.Within count := by
  obtain ⟨index, -, rfl⟩ := List.mem_map.mp (List.mem_reverse.mp h)
  unfold source
  cases Graph.repeatedPlace? kind index with
  | some place =>
    cases hp : inputs[place]? with
    | none => simp [hp, Source.Within]
    | some s => simpa [hp] using hinputs s (List.mem_of_getElem? hp)
  | none =>
    cases kind with
    | argument number type => exact absurd rfl (hk number type)
    | literal value => trivial
    | primitive p => trivial
    | call callee => trivial

namespace Operation

/-- The flow of an operation by itself. -/
def flow : Operation → Flow
  | literal value => ⟨[], (NodeKind.literal value).leaves []⟩
  | primitive p => ⟨List.replicate p.inputArity p.operandType,
      (NodeKind.primitive p).leaves (Source.arguments p.inputArity).reverse⟩
  | call callee => ⟨callee.signature.inputs,
      (NodeKind.call callee).leaves (Source.arguments callee.signature.inputArity)⟩
  | splice f => f.flow

variable {V : Vocabulary} {op : Operation} {d d₁ e : Draft} {os : List Output} {position : Nat}

theorem Sound.valid_flow (hop : op.Sound V) : op.flow.Valid := by
  cases op with
  | splice f => exact Definition.Sound.valid_flow hop
  | literal value =>
    exact fun s hs => NodeKind.within_of_mem_leaves (by simp) (by simp) hs
  | primitive p =>
    refine fun s hs => NodeKind.within_of_mem_leaves (by simp) (fun s hs => ?_) hs
    rw [flow, List.length_replicate]
    exact Source.within_of_mem_arguments (List.mem_reverse.mp hs)
  | call callee =>
    exact fun s hs => NodeKind.within_of_mem_leaves (by simp)
      (fun s hs => Source.within_of_mem_arguments hs) hs

theorem Sound.takes_flow (hop : op.Sound V) : op.flow.takes = op.demands := by
  cases op with
  | literal value => rfl
  | primitive p => rfl
  | call callee => rfl
  | splice f =>
    have hf : f.Sound V := hop
    rw [demands_splice hf.signature_eq]
    rfl

theorem Sound.flow_eq {u : Unit} (hop : op.Sound V) (hd : d.Sound V)
    (hp : Draft.popAll op.demands op.word position d = .ok os d₁)
    (h : op.read position d = .ok u e) :
    e.flow = op.flow.onto (os.map d₁.graph.source) d₁.flow := by
  obtain ⟨sound, -, accepts⟩ := hd.popAll hp
  have hl : (os.map d₁.graph.source).length = op.demands.length := by
    rw [List.length_map, Draft.length_popAll hp]
  have harguments := Source.map_via_arguments (os.map d₁.graph.source)
  cases op with
  | literal value =>
    cases hp
    obtain ⟨n, h⟩ := Action.discard_eq_ok.mp h
    rw [Draft.literal_apply] at h
    cases h
    have hk : V.Has (.literal value) := trivial
    rw [hd.flow_extend hk (by simp) .nil]
    rfl
  | primitive p =>
    obtain ⟨n, h⟩ := Action.discard_eq_ok.mp h
    obtain ⟨os', d', hp', -, rfl⟩ := Draft.apply_eq_ok.mp h
    cases hp.symm.trans hp'
    have hk : V.Has (.primitive p) := hop
    rw [hl, demands, List.length_replicate] at harguments
    rw [sound.flow_extend hk (by simp) (Draft.accepts_primitive accepts), Flow.onto, flow,
      NodeKind.leaves_via (by simp), List.map_reverse, List.map_reverse, harguments]
  | call callee =>
    obtain ⟨n, h⟩ := Action.discard_eq_ok.mp h
    obtain ⟨os', d', hp', -, rfl⟩ := Draft.call_eq_ok.mp h
    cases hp.symm.trans hp'
    have hk : V.Has (.call callee) := hop
    rw [hl] at harguments
    rw [sound.flow_extend hk (by simp) accepts, Flow.onto, flow, NodeKind.leaves_via (by simp)]
    exact congrArg (fun sources => { d₁.flow with
      leaves := NodeKind.leaves sources (.call callee) ++ d₁.flow.leaves }) harguments.symm
  | splice f =>
    have hf : f.Sound V := hop
    have hs := hf.signature_eq
    have hdemands : (splice f).demands = f.flow.takes := hop.takes_flow.symm
    rw [hdemands] at hp
    exact hf.flow_inlineInto hd hs hp h

/-- An operation can be read where its flow can follow. -/
theorem Sound.flow_read (hop : op.Sound V) (hd : d.Sound V) (position : Nat) :
    match d.flow.andThen op.flow with
    | some F => ∃ e, op.read position d = .ok () e ∧ e.flow = F
    | none => ∃ fault e, op.read position d = .error fault e := by
  have hpop := hd.flow_popAll op.demands op.word position
  have hread := hop.read_cases hd position
  rw [Flow.andThen, hop.takes_flow]
  cases hp : d.flow.popAll op.demands with
  | none =>
    simp only [hp] at hpop
    obtain ⟨fault, d₁, hfault⟩ := hpop
    simp only [hfault] at hread
    exact ⟨fault, hread⟩
  | some x =>
    obtain ⟨sources, F⟩ := x
    simp only [hp] at hpop
    obtain ⟨os, d₁, hos, rfl, rfl⟩ := hpop
    simp only [hos] at hread
    obtain ⟨e, he⟩ := hread
    exact ⟨e, he, hop.flow_eq hd hos he⟩

end Operation

namespace Flow
variable {V : Vocabulary} {ops : List Operation} {F G : Flow}

/-- The flow that goes on with operations one after the other. -/
def along (F : Flow) (ops : List Operation) : Option Flow :=
  ops.foldlM (fun F op => F.andThen op.flow) F

theorem along_cons (F : Flow) (op : Operation) (ops : List Operation) :
    F.along (op :: ops) = (F.andThen op.flow).bind (·.along ops) := rfl

theorem along_append (F : Flow) (ops more : List Operation) :
    F.along (ops ++ more) = (F.along ops).bind (·.along more) := List.foldlM_append

theorem Valid.along (hF : F.Valid) (hops : ∀ op ∈ ops, op.Sound V) (h : F.along ops = some G) :
    G.Valid := by
  induction ops generalizing F with
  | nil =>
    cases h
    exact hF
  | cons op ops ih =>
    obtain ⟨hop, hops⟩ := List.forall_mem_cons.mp hops
    obtain ⟨F₁, h₁, h⟩ := Option.bind_eq_some_iff.mp h
    exact ih (hF.andThen hop.valid_flow h₁) hops h

/-- A body that goes on from one flow goes on in the same way from whatever that flow follows. -/
theorem andThen_along {X : Flow} (hX : X.Valid) (hF : F.Valid) (hops : ∀ op ∈ ops, op.Sound V)
    (h : F.along ops = some G) : (X.andThen F).bind (·.along ops) = X.andThen G := by
  induction ops generalizing F with
  | nil =>
    cases h
    exact Option.bind_fun_some _
  | cons op ops ih =>
    obtain ⟨hop, hops⟩ := List.forall_mem_cons.mp hops
    obtain ⟨F₁, h₁, h⟩ := Option.bind_eq_some_iff.mp h
    have hrest := ih (hF.andThen hop.valid_flow h₁) hops h
    rw [← hrest, ← andThen_assoc hX hF hop.valid_flow h₁, Option.bind_assoc]
    rfl

/-- Who sees the origins of values can read what can be read by their types alone. -/
theorem Hides.along {ops' : List Operation} (hG : G.Valid) {F' : Flow} (h : F.Hides G)
    (hops : List.Forall₂ (fun op op' => op.flow.Hides op'.flow) ops ops')
    (hsound : ∀ op ∈ ops', op.Sound V) (hp : F.along ops = some F') :
    ∃ G', G.along ops' = some G' ∧ F'.Hides G' := by
  induction hops generalizing F G with
  | nil =>
    cases hp
    exact ⟨G, rfl, h⟩
  | @cons op op' ops ops' hop hops ih =>
    obtain ⟨hop', hsound⟩ := List.forall_mem_cons.mp hsound
    obtain ⟨F₁, h₁, hp⟩ := Option.bind_eq_some_iff.mp hp
    obtain ⟨G₁, hG₁, hhides⟩ := h.andThen hG hop hop'.valid_flow h₁
    obtain ⟨G', hG', hhides'⟩ := ih (hG.andThen hop'.valid_flow hG₁) hhides hsound hp
    exact ⟨G', by rw [along_cons, hG₁, Option.bind_some, hG'], hhides'⟩

end Flow

theorem Operation.flow_readAll {V : Vocabulary} {ops : List Operation} {d : Draft}
    (hops : ∀ op ∈ ops, op.Sound V) (hd : d.Sound V) (start : Nat) :
    match d.flow.along ops with
    | some F => ∃ e, readAll ops start d = .ok () e ∧ e.flow = F
    | none => ∃ fault e, readAll ops start d = .error fault e := by
  induction ops generalizing d start with
  | nil => exact ⟨d, rfl, rfl⟩
  | cons op ops ih =>
    obtain ⟨hop, hops⟩ := List.forall_mem_cons.mp hops
    have hfirst := hop.flow_read hd start
    rw [Flow.along_cons, readAll, List.zipIdx_cons, Action.forM_cons]
    cases h : d.flow.andThen op.flow with
    | none =>
      simp only [h] at hfirst
      obtain ⟨fault, e, he⟩ := hfirst
      exact ⟨fault, e, Action.bind_of_error he _⟩
    | some F =>
      simp only [h] at hfirst
      obtain ⟨d₁, h₁, rfl⟩ := hfirst
      rw [Action.bind_of_ok h₁]
      exact ih hops (hop.read hd h₁).1 (start + 1)

/-- Operations can be read by themselves if they have a flow, which then is that of the draft. -/
theorem Operation.readAll_iff {V : Vocabulary} {ops : List Operation} {F : Flow}
    (hops : ∀ op ∈ ops, op.Sound V) :
    (∃ d, readAll ops 0 {} = .ok () d ∧ d.flow = F) ↔ ({} : Flow).along ops = some F := by
  have hflow := flow_readAll hops (.empty V) 0
  have hempty : ({} : Draft).flow = {} := rfl
  rw [hempty] at hflow
  cases h : ({} : Flow).along ops with
  | none =>
    simp only [h] at hflow
    obtain ⟨fault, e, he⟩ := hflow
    simp [he]
  | some G =>
    simp only [h] at hflow
    obtain ⟨e, he, rfl⟩ := hflow
    simp [he]

theorem Draft.flow_toDefinition (d : Draft) (name : String) (body : List Token) :
    (d.toDefinition name body).flow = d.flow := by
  simp [Definition.flow, flow, toDefinition, contents]

theorem Flow.andThen_splice {V : Vocabulary} {own : List Operation} {f : Draft}
    (hown : ∀ op ∈ own, op.Sound V) (hf : Operation.readAll own 0 {} = .ok () f) {X : Flow}
    (hX : X.Valid) (name : String) (source : List Token) :
    X.andThen (Operation.splice (f.toDefinition name source)).flow = X.along own := by
  have hflow := (Operation.readAll_iff hown).mp ⟨f, hf, rfl⟩
  rw [Operation.flow, f.flow_toDefinition, ← andThen_along hX valid_empty hown hflow, andThen_empty]
  rfl

/-- In a body a definition goes on as its own operations do in its place. -/
theorem Flow.along_splice {V : Vocabulary} {before own : List Operation} {f : Draft}
    (hbefore : ∀ op ∈ before, op.Sound V) (hown : ∀ op ∈ own, op.Sound V)
    (hf : Operation.readAll own 0 {} = .ok () f) (after : List Operation) (name : String)
    (source : List Token) :
    ({} : Flow).along (before ++ .splice (f.toDefinition name source) :: after) =
      ({} : Flow).along (before ++ own ++ after) := by
  rw [List.append_assoc, along_append, along_append]
  cases h : ({} : Flow).along before with
  | none => rfl
  | some X =>
    rw [Option.bind_some, Option.bind_some, along_cons,
      andThen_splice hown hf (valid_empty.along hbefore h), along_append]

theorem Session.readBody_iff {dictionary : Dictionary} (hdict : dictionary.Sound) {body : List Token}
    {F : Flow} :
    (∃ draft, readBody dictionary body {} = .ok () draft ∧ draft.flow = F) ↔
      ∃ ops, body.mapM (operation dictionary) = .ok ops ∧ ({} : Flow).along ops = some F := by
  constructor
  · rintro ⟨draft, hread, hF⟩
    obtain ⟨ops, hops, hread⟩ := readTokens_eq_ok.mp hread
    exact ⟨ops, hops, (Operation.readAll_iff (sound_operations hdict hops)).mp ⟨draft, hread, hF⟩⟩
  · rintro ⟨ops, hops, halong⟩
    obtain ⟨draft, hread, hF⟩ := (Operation.readAll_iff (sound_operations hdict hops)).mpr halong
    exact ⟨draft, readTokens_eq_ok.mpr ⟨ops, hops, hread⟩, hF⟩

end StackEffect
