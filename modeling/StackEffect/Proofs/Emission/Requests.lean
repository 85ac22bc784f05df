import StackEffect.Proofs.Emission.Traced
import StackEffect.Proofs.Graph.Acyclic

/-!
Requests for nodes and outputs in any order. In a graph without circles a node is generated at its first
request that is met, after the nodes that it depends on, and never again: its operands stay as they are,
whatever is asked for later and whatever fails (`answered_once`).
-/
namespace StackEffect
open Relation
variable {T : Target} {g : Graph} {functions : FunctionTable T}

/-- The bound on the length of chains of inputs does not matter, as long as it is above the number of
nodes that a node depends on. -/
theorem Emission.nodeWithin_eq (hg : g.Acyclic) (hc : g.Closed) {id j k : Nat}
    (hj : g.height id < j) (hk : g.height id < k) :
    nodeWithin g functions j id = nodeWithin g functions k id := by
  induction j generalizing id k with
  | zero => exact absurd hj (Nat.not_lt_zero _)
  | succ j ih =>
    obtain ⟨k, rfl⟩ := Nat.exists_eq_succ_of_ne_zero (Nat.ne_zero_of_lt hk)
    unfold nodeWithin
    cases hn : g.node? id with
    | none => rfl
    | some n =>
      have hinputs : (n.inputs.mapM fun (input : Output) => do
            Action.ofExcept (pick (← nodeWithin g functions j input.node) input.index)) =
          (n.inputs.mapM fun (input : Output) => do
            Action.ofExcept (pick (← nodeWithin g functions k input.node) input.index)) := by
        refine Action.mapM_congr fun o ho => ?_
        have hlt := Graph.height_lt_of_feeds hg hc (Graph.feeds_of_mem hn ho)
        rw [ih (Nat.lt_of_lt_of_le hlt (Nat.le_of_lt_succ hj))
          (Nat.lt_of_lt_of_le hlt (Nat.le_of_lt_succ hk))]
      simp only [hinputs]

/-! ### What requests keep -/

/-- The call for a node has been answered with an operand for each of its outputs. -/
def Graph.Fulfilled (g : Graph) (x : NodeId × Exchange T) (operands : List T.Operand) : Prop :=
  x.2.answer = .ok operands ∧ operands.length = g.outputArity x.1

namespace Traced
variable {s t u : Traced T} {id a : NodeId} {n : Node} {new : List (NodeId × Exchange T)}
  {answer : Except CompileError (List T.Operand)} {operands : List T.Operand}

/-- What is in the cache agrees with the record: the nodes that have been generated are those whose
call has been answered with the right number of operands, which are in the cache, and nothing has been
asked for them since. -/
structure Sound (g : Graph) (s : Traced T) : Prop where
  places : s.emission.cache.size = g.size
  counted : ∀ {id operands}, s.cached? id = some operands → operands.length = g.outputArity id
  closed : ∀ {a id operands}, s.cached? id = some operands → g.Feeds a id →
    ∃ handles, s.cached? a = some handles
  answered : ∀ {id n operands}, g.node? id = some n → n.kind.isCoded = true →
    (s.cached? id = some operands ↔ ∃ x ∈ s.calls, x.1 = id ∧ g.Fulfilled x operands)
  coded : ∀ {x}, x ∈ s.calls → ∃ n, g.node? x.1 = some n ∧ n.kind.isCoded = true
  once : s.calls.Pairwise fun x y => ∀ operands, g.Fulfilled x operands → y.1 ≠ x.1

/-- How requests go on from `s`. What was in the cache is there still, what is there besides is of nodes
of the kind `B`, and no call was made for a node that had been generated. -/
structure Extends (g : Graph) (B : NodeId → Prop) (s t : Traced T) : Prop where
  sound : t.Sound g
  kept : ∀ {id operands}, s.cached? id = some operands → t.cached? id = some operands
  fresh : ∀ {id operands}, t.cached? id = some operands → s.cached? id = some operands ∨ B id
  calls : ∃ new, t.calls = s.calls ++ new ∧ ∀ x ∈ new, s.cached? x.1 = none

variable {B B' : NodeId → Prop}

theorem Sound.refl (hs : s.Sound g) : Extends g B s s :=
  ⟨hs, fun h => h, .inl, [], (List.append_nil _).symm, fun _ hx => nomatch hx⟩

theorem Extends.trans (h : Extends g B s t) (h' : Extends g B t u) : Extends g B s u where
  sound := h'.sound
  kept hid := h'.kept (h.kept hid)
  fresh hid := (h'.fresh hid).elim h.fresh .inr
  calls := by
    obtain ⟨new, hnew, hfresh⟩ := h.calls
    obtain ⟨new', hnew', hfresh'⟩ := h'.calls
    refine ⟨new ++ new', by rw [hnew', hnew, List.append_assoc], fun x hx => ?_⟩
    rcases List.mem_append.mp hx with hx | hx
    · exact hfresh x hx
    · rw [Option.eq_none_iff_forall_ne_some]
      exact fun operands hs => Option.ne_none_iff_exists'.mpr ⟨operands, h.kept hs⟩ (hfresh' x hx)

theorem Extends.imp (h : Extends g B s t) (hB : ∀ id, B id → B' id) : Extends g B' s t :=
  { h with fresh := fun hid => (h.fresh hid).imp_right (hB _) }

theorem Sound.start (g : Graph) (t : T.State) : (start g t).Sound g := by
  have hcached : ∀ id, (Traced.start g t).cached? id = none := by
    intro id
    rw [Traced.cached?, Traced.start, (Emission.Holds.empty t g).cached]
    rfl
  constructor
  · exact (Emission.Holds.empty t g).places
  · exact fun h => nomatch (hcached _).symm.trans h
  · exact fun h => nomatch (hcached _).symm.trans h
  · intro id n operands hn hk
    rw [hcached]
    exact ⟨fun h => (nomatch h), fun ⟨x, hx, _⟩ => nomatch hx⟩
  · exact fun hx => nomatch hx
  · exact .nil

section Call
variable (hs : s.Sound g) (hn : g.node? id = some n) (hid : s.cached? id = none)
  (ha : Answers id n answer new)
include hs

include hn hid ha in
theorem Sound.once_append :
    (s.calls ++ new).Pairwise fun x y => ∀ operands, g.Fulfilled x operands → y.1 ≠ x.1 := by
  refine List.pairwise_append.mpr ⟨hs.once, ?_, fun x hx y hy operands hf heq => ?_⟩
  · cases ha with
    | shuffle operands hk => exact .nil
    | missing fault => exact .nil
    | asked query answer hk => exact List.pairwise_singleton _ _
  · obtain ⟨hy, -, hk⟩ := ha.of_mem hy
    cases hid.symm.trans ((hs.answered hn hk).mpr ⟨x, hx, heq.symm.trans hy, hf⟩)

include hn ha in
theorem Sound.coded_append {x : NodeId × Exchange T} (hx : x ∈ s.calls ++ new) :
    ∃ n, g.node? x.1 = some n ∧ n.kind.isCoded = true := by
  rcases List.mem_append.mp hx with hx | hx
  · exact hs.coded hx
  · obtain ⟨rfl, -, hk⟩ := ha.of_mem hx
    exact ⟨n, hn, hk⟩

theorem Sound.answered_append {m : Node} (hm : g.node? a = some m) (hk : m.kind.isCoded = true)
    (hnew : ∀ x ∈ new, x.1 = a → ¬ g.Fulfilled x operands) :
    s.cached? a = some operands ↔ ∃ x ∈ s.calls ++ new, x.1 = a ∧ g.Fulfilled x operands := by
  refine (hs.answered hm hk).trans ⟨fun ⟨x, hx, hxa⟩ => ⟨x, List.mem_append_left _ hx, hxa⟩, ?_⟩
  rintro ⟨x, hx, hxa, hf⟩
  rcases List.mem_append.mp hx with hx | hx
  · exact ⟨x, hx, hxa, hf⟩
  · exact absurd hf (hnew x hx hxa)

include hn hid ha in
theorem Sound.refuse (hfail : ∀ operands, answer = .ok operands → operands.length ≠ n.outputArity)
    (t : T.State) : Extends g B s ⟨{ s.emission with target := t }, s.calls ++ new⟩ := by
  have hnew : ∀ {operands}, ∀ x ∈ new, ¬ g.Fulfilled x operands := by
    rintro operands x hx ⟨hanswer, hl⟩
    obtain ⟨rfl, hx, -⟩ := ha.of_mem hx
    rw [Graph.outputArity, hn] at hl
    exact hfail operands (hx.symm.trans hanswer) hl
  have sound : Sound g (⟨{ s.emission with target := t }, s.calls ++ new⟩ : Traced T) :=
    ⟨hs.places, hs.counted, hs.closed, fun hm hk => hs.answered_append hm hk fun x hx _ => hnew x hx,
      hs.coded_append hn ha, hs.once_append hn hid ha⟩
  exact ⟨sound, fun h => h, .inl, new, rfl, fun x hx => (ha.of_mem hx).1 ▸ hid⟩

include hn hid in
/-- The first call that is answered with the right number of operands is the one that counts. -/
theorem Sound.fulfilled_iff {results : List T.Operand} (hk : n.kind.isCoded = true)
    (ha : Answers id n (.ok results) new) (hl : results.length = n.outputArity) :
    (∃ x ∈ s.calls ++ new, x.1 = id ∧ g.Fulfilled x operands) ↔ results = operands := by
  have harity : g.outputArity id = n.outputArity := by rw [Graph.outputArity, hn]; rfl
  constructor
  · rintro ⟨x, hx, rfl, hanswer, hl'⟩
    rcases List.mem_append.mp hx with hx | hx
    · cases hid.symm.trans ((hs.answered hn hk).mpr ⟨x, hx, rfl, hanswer, hl'⟩)
    · cases (ha.of_mem hx).2.1.symm.trans hanswer
      rfl
  · rintro rfl
    cases ha with
    | shuffle _ hk' => cases hk'.symm.trans hk
    | asked query _ _ =>
      exact ⟨_, List.mem_append_right _ List.mem_cons_self, rfl, rfl, hl.trans harity.symm⟩

include hn hid in
theorem Sound.fulfil {results : List T.Operand}
    (hinputs : ∀ o ∈ n.inputs, ∃ handles, s.cached? o.node = some handles)
    (ha : Answers id n (.ok results) new) (hl : results.length = n.outputArity) (t : T.State) :
    Extends g (· = id) s
      ⟨({ s.emission with target := t } : Emission T).store id results, s.calls ++ new⟩ := by
  set u : Traced T := ⟨({ s.emission with target := t } : Emission T).store id results, s.calls ++ new⟩
  have hstored : ∀ a, u.cached? a = if a = id then some results else s.cached? a :=
    fun a => Emission.cached?_store (hs.places ▸ Graph.lt_size_of_node? hn) results a
  have hkept : ∀ {a operands}, s.cached? a = some operands → u.cached? a = some operands := by
    intro a operands h
    rw [hstored, if_neg, h]
    rintro rfl
    cases hid.symm.trans h
  have sound : u.Sound g := by
    refine ⟨(Array.size_setIfInBounds ..).trans hs.places, fun {a operands} h => ?_,
      fun {b a operands} h hfeeds => ?_, fun {a m operands} hm hk => ?_, hs.coded_append hn ha,
      hs.once_append hn hid ha⟩
    · rw [hstored] at h
      split_ifs at h with heq
      · cases h
        rw [heq, hl, Graph.outputArity, hn]
        rfl
      · exact hs.counted h
    · have hb : ∃ handles, s.cached? b = some handles := by
        rw [hstored] at h
        split_ifs at h with heq
        · obtain ⟨m, hm, o, ho, rfl⟩ := heq ▸ hfeeds
          cases hn.symm.trans hm
          exact hinputs o ho
        · exact hs.closed h hfeeds
      exact hb.imp fun _ => hkept
    · rw [hstored]
      split_ifs with heq
      · subst heq
        cases hn.symm.trans hm
        exact Option.some_inj.trans (hs.fulfilled_iff hn hid hk ha hl).symm
      · exact hs.answered_append hm hk fun x hx hxa => absurd (hxa ▸ (ha.of_mem hx).1) heq
  refine ⟨sound, hkept, fun {a operands} h => ?_, new, rfl, fun x hx => (ha.of_mem hx).1 ▸ hid⟩
  rw [hstored] at h
  split_ifs at h with heq
  · exact .inr heq
  · exact .inl h

end Call

/-! ### One request -/

/-- From the state `s` on, the action extends the cache by nodes of the kind `B`, also when it fails, and
`P` holds of what it answers. -/
def ExtendsAt {α : Type} (g : Graph) (B : NodeId → Prop) (P : α → Emission T → Prop)
    (x : Action (Traced T) α) (s : Traced T) : Prop :=
  match x s with
  | .ok a t => Extends g B s t ∧ P a t.emission
  | .error _ t => Extends g B s t

/-- The same from every sound state on. -/
def Extending {α : Type} (g : Graph) (B : NodeId → Prop) (P : α → Emission T → Prop)
    (x : Action (Traced T) α) : Prop :=
  ∀ s, s.Sound g → ExtendsAt g B P x s

section Extending
variable {α β : Type} {P : α → Emission T → Prop} {Q : β → Emission T → Prop}
  {x : Action (Traced T) α}

theorem ExtendsAt.ok {a : α} (hx : ExtendsAt g B P x s) (h : x s = .ok a t) :
    Extends g B s t ∧ P a t.emission := by
  simpa only [ExtendsAt, h] using hx

theorem ExtendsAt.error {e : CompileError} (hx : ExtendsAt g B P x s) (h : x s = .error e t) :
    Extends g B s t := by
  simpa only [ExtendsAt, h] using hx

theorem ExtendsAt.bind {f : α → Action (Traced T) β} (hx : ExtendsAt g B P x s)
    (hB : ∀ id, B id → B' id)
    (hf : ∀ a t, Extends g B s t → P a t.emission → ExtendsAt g B' Q (f a) t) :
    ExtendsAt g B' Q (x >>= f) s := by
  unfold ExtendsAt
  rw [Action.bind_apply]
  cases h : x s with
  | error e t => exact (hx.error h).imp hB
  | ok a t =>
    obtain ⟨hext, ha⟩ := hx.ok h
    have hrest := hf a t hext ha
    simp only
    cases h' : f a t with
    | ok b u => exact (hrest.ok h').imp_left (hext.imp hB).trans
    | error e u => exact (hext.imp hB).trans (hrest.error h')

theorem ExtendsAt.imp (hx : ExtendsAt g B P x s) (hB : ∀ id, B id → B' id) :
    ExtendsAt g B' P x s := by
  unfold ExtendsAt
  cases h : x s with
  | ok a t => exact (hx.ok h).imp_left (·.imp hB)
  | error e t => exact (hx.error h).imp hB

theorem Extending.imp (hx : Extending g B P x) (hB : ∀ id, B id → B' id) : Extending g B' P x :=
  fun s hs => (hx s hs).imp hB

theorem Extending.attempt (hx : Extending g B P x) (hs : s.Sound g) :
    Extends g B s (x.attempt s).2 := by
  unfold Action.attempt
  cases h : x s with
  | ok a t => exact ((hx s hs).ok h).1
  | error e t => exact (hx s hs).error h

theorem Extending.erased {y : Action (Emission T) α} (hx : Extending g B P x)
    (hy : x.Erases emission y) (hs : s.Sound g) :
    (∀ a e, y s.emission = .ok a e → P a e) ∧ ∀ fault e, y s.emission = .error fault e →
      ∀ id operands, s.cached? id = some operands → e.cached? id = some operands := by
  rw [hy s]
  cases h : x s with
  | ok a t =>
    refine ⟨fun b e heq => ?_, fun _ _ heq => nomatch heq⟩
    cases heq
    exact ((hx s hs).ok h).2
  | error fault t =>
    refine ⟨fun _ _ heq => (nomatch heq), fun fault e heq id operands => ?_⟩
    cases heq
    exact ((hx s hs).error h).kept

end Extending

theorem Extending.pick {x : Action (Traced T) (List T.Operand)} (o : Output)
    (hx : Extending g B (fun operands e => e.cached? o.node = some operands) x) :
    Extending g B (fun operand e => ∃ operands, e.cached? o.node = some operands ∧
      operands[o.index]? = some operand) (do Action.ofExcept (Emission.pick (← x) o.index)) := by
  refine fun s hs => (hx s hs).bind (fun _ h => h) fun operands t hext hcached => ?_
  unfold ExtendsAt
  cases h : Emission.pick operands o.index with
  | ok operand => exact ⟨hext.sound.refl, operands, hcached, Emission.pick_eq_ok.mp h⟩
  | error e => exact hext.sound.refl

theorem Extending.mapM {f : Output → Action (Traced T) T.Operand} {inputs : List Output}
    (hf : ∀ o ∈ inputs, Extending g B (fun operand e => ∃ operands,
      e.cached? o.node = some operands ∧ operands[o.index]? = some operand) (f o)) :
    Extending g B (fun _ e => ∀ o ∈ inputs, ∃ handles, e.cached? o.node = some handles)
      (inputs.mapM f) := by
  induction inputs with
  | nil => exact fun s hs => ⟨hs.refl, fun _ ho => nomatch ho⟩
  | cons o inputs ih =>
    rw [List.mapM_cons]
    have hrest := ih fun o' ho' => hf o' (List.mem_cons_of_mem o ho')
    intro s hs
    refine (hf o List.mem_cons_self s hs).bind (fun _ h => h) fun operand t hext ⟨handles, ho, _⟩ => ?_
    refine (hrest t hext.sound).bind (fun _ h => h) fun operands u hext' hin => ?_
    refine ⟨hext'.sound.refl, fun o' ho' => ?_⟩
    rcases List.mem_cons.mp ho' with rfl | ho'
    · exact ⟨handles, hext'.kept ho⟩
    · exact hin o' ho'

/-- The call for a node whose inputs have been generated, and what becomes of its answer. -/
theorem Sound.extendsAt_call (hs : s.Sound g) (hn : g.node? id = some n) (hid : s.cached? id = none)
    (hinputs : ∀ o ∈ n.inputs, ∃ handles, s.cached? o.node = some handles)
    (functions : FunctionTable T) (operands : List T.Operand) :
    ExtendsAt g (· = id) (fun results e => e.cached? id = some results) (do
      let results ← emit g functions id n.kind operands
      if results.length = n.outputArity then
        modify fun s => { s with emission := s.emission.store id results }
        return results
      else
        throw (.arity n.label (.resultCount results.length n.outputArity))) s := by
  obtain ⟨new, t, ha, ht⟩ := answers_emit functions hn operands s
  unfold ExtendsAt
  rw [Action.bind_apply]
  unfold Action.attempt at ha ht
  cases hemit : emit g functions id n.kind operands s with
  | error e u =>
    simp only [hemit] at ha ht ⊢
    rw [ht]
    exact hs.refuse hn hid ha (fun _ h => nomatch h) t
  | ok results u =>
    simp only [hemit] at ha ht ⊢
    rw [ht]
    by_cases hl : results.length = n.outputArity
    · simp only [hl, if_true]
      refine ⟨hs.fulfil hn hid hinputs ha hl t, ?_⟩
      exact (Emission.cached?_store (hs.places ▸ Graph.lt_size_of_node? hn) results id).trans
        (if_pos rfl)
    · simp only [hl, if_false]
      refine hs.refuse hn hid ha (fun operands h => ?_) t
      cases h
      exact hl

/-- A request for a node generates nothing but what the node depends on, and the node itself at last. -/
theorem extending_nodeWithin (hg : g.Acyclic) (functions : FunctionTable T) (depth : Nat)
    (id : NodeId) : Extending g (ReflTransGen g.Feeds · id)
      (fun operands e => e.cached? id = some operands) (nodeWithin g functions depth id) := by
  induction depth generalizing id with
  | zero => exact fun s hs => hs.refl
  | succ depth ih =>
    intro s hs
    unfold nodeWithin ExtendsAt
    rw [Action.bind_of_ok (Action.get_apply s)]
    cases hid : s.cached? id with
    | some operands => exact ⟨hs.refl, hid⟩
    | none =>
      cases hn : g.node? id with
      | none => exact hs.refl
      | some n =>
        have hinputs : Extending g (TransGen g.Feeds · id)
            (fun _ e => ∀ o ∈ n.inputs, ∃ handles, e.cached? o.node = some handles)
            (n.inputs.mapM fun (input : Output) => do
              Action.ofExcept (Emission.pick (← nodeWithin g functions depth input.node)
                input.index)) :=
          .mapM fun o ho => (Extending.pick o (ih o.node)).imp fun a ha =>
            TransGen.tail' ha (Graph.feeds_of_mem hn ho)
        refine ExtendsAt.bind (Q := fun operands e => e.cached? id = some operands) (hinputs s hs)
          (fun _ => TransGen.to_reflTransGen) fun operands t hext hin => ?_
        have hid' : t.cached? id = none := by
          rw [Option.eq_none_iff_forall_ne_some]
          intro results h
          rcases hext.fresh h with h | h
          · cases hid.symm.trans h
          · exact hg id h
        exact (hext.sound.extendsAt_call hn hid' hin functions operands).imp fun a ha => ha ▸ .refl

theorem extending_value (hg : g.Acyclic) (functions : FunctionTable T) (o : Output) :
    Extending g (ReflTransGen g.Feeds · o.node) (fun operand e => ∃ operands,
      e.cached? o.node = some operands ∧ operands[o.index]? = some operand) (value g functions o) :=
  .pick o (extending_nodeWithin hg functions _ o.node)

/-! ### Runs -/

/-- What one request makes of an emission, whether or not it is met; in between, the target may be used
for something else. -/
inductive Step (g : Graph) (s : Traced T) : Traced T → Prop
  | node (functions : FunctionTable T) (id : NodeId) :
      Step g s ((Traced.node g functions id).attempt s).2
  | value (functions : FunctionTable T) (o : Output) :
      Step g s ((Traced.value g functions o).attempt s).2
  | elsewhere (t : T.State) : Step g s { s with emission := { s.emission with target := t } }

theorem Step.extends (h : Step g s t) (hg : g.Acyclic) (hs : s.Sound g) :
    Extends g (fun _ => True) s t := by
  cases h with
  | node functions id =>
    exact ((extending_nodeWithin hg functions _ id).attempt hs).imp fun _ _ => trivial
  | value functions o => exact ((extending_value hg functions o).attempt hs).imp fun _ _ => trivial
  | elsewhere t =>
    exact ⟨⟨hs.places, hs.counted, hs.closed, hs.answered, hs.coded, hs.once⟩, fun h => h, .inl, [],
      (List.append_nil _).symm, fun _ hx => nomatch hx⟩

theorem extends_of_steps (h : ReflTransGen (Step g) s t) (hg : g.Acyclic) (hs : s.Sound g) :
    Extends g (fun _ => True) s t := by
  induction h with
  | refl => exact hs.refl
  | tail _ hstep ih => exact ih.trans (hstep.extends hg ih.sound)

theorem Sound.cached_of_depends (hs : s.Sound g) (h : TransGen g.Feeds a id)
    (hid : s.cached? id = some operands) : ∃ handles, s.cached? a = some handles := by
  induction h using TransGen.head_induction_on with
  | single h => exact hs.closed hid h
  | head h _ ih =>
    obtain ⟨handles, hb⟩ := ih
    exact hs.closed hb h

/-- After any requests for nodes and outputs of a graph without circles, whether or not they are met. The
record changes nothing of what is requested, and a recursion that may go deeper than the graph has nodes
goes no deeper. Nothing is asked for a node behind a call for it that has been answered with the right
number of operands, nor ever for a shuffle, and the operands that such a call was answered with are what
is in the cache for its node. What is in the cache is an operand for each output of a node; the nodes that
it depends on are in the cache as well; and it stays the same, with no further call for the node, along
all later requests. A request that is met answers what is in the cache then, and one that fails leaves
there what was there. -/
theorem answered_once (hg : g.Acyclic) (hc : g.Closed) {t₀ : T.State} {s later : Traced T}
    (hs : ReflTransGen (Step g) (start g t₀) s) (hlater : ReflTransGen (Step g) s later) :
    (∀ functions id, (node g functions id).Erases emission (Emission.node (T := T) g functions id)) ∧
    (∀ functions o, (value g functions o).Erases emission (Emission.value (T := T) g functions o)) ∧
    (∀ functions id depth, id < g.size → g.size ≤ depth →
      Emission.nodeWithin (T := T) g functions depth id = Emission.node g functions id) ∧
    s.calls.Pairwise (fun x y => ∀ operands, g.Fulfilled x operands → y.1 ≠ x.1) ∧
    (∀ x ∈ s.calls, ∃ n, g.node? x.1 = some n ∧ n.kind.isCoded = true) ∧
    (∀ id n operands, g.node? id = some n → n.kind.isCoded = true →
      (s.cached? id = some operands ↔ ∃ x ∈ s.calls, x.1 = id ∧ g.Fulfilled x operands)) ∧
    (∀ id operands, s.cached? id = some operands → operands.length = g.outputArity id ∧
      (∀ a, TransGen g.Feeds a id → ∃ handles, s.cached? a = some handles) ∧
      later.cached? id = some operands ∧
      ∃ new, later.calls = s.calls ++ new ∧ ∀ x ∈ new, x.1 ≠ id) ∧
    (∀ functions id,
      (∀ operands e, Emission.node g functions id s.emission = .ok operands e →
        e.cached? id = some operands) ∧
      ∀ fault e, Emission.node g functions id s.emission = .error fault e →
        ∀ a operands, s.cached? a = some operands → e.cached? a = some operands) ∧
    (∀ functions o,
      (∀ operand e, Emission.value g functions o s.emission = .ok operand e →
        ∃ operands, e.cached? o.node = some operands ∧ operands[o.index]? = some operand) ∧
      ∀ fault e, Emission.value g functions o s.emission = .error fault e →
        ∀ a operands, s.cached? a = some operands → e.cached? a = some operands) := by
  have sound : s.Sound g := (extends_of_steps hs hg (.start g t₀)).sound
  have hext := extends_of_steps hlater hg sound
  refine ⟨fun functions => erases_nodeWithin g functions _, erases_value g,
    fun functions id depth hid hdepth => ?_, sound.once, fun x => sound.coded,
    fun id n operands => sound.answered, fun id operands hid => ⟨sound.counted hid,
      fun a ha => sound.cached_of_depends ha hid, hext.kept hid, ?_⟩, fun functions id =>
    (extending_nodeWithin hg functions _ id).erased (erases_nodeWithin g functions _ id) sound,
    fun functions o => (extending_value hg functions o).erased (erases_value g functions o) sound⟩
  · have hheight := Graph.height_lt_size hg hid
    exact Emission.nodeWithin_eq hg hc (Nat.lt_of_lt_of_le hheight hdepth) hheight
  · obtain ⟨new, hnew, hfresh⟩ := hext.calls
    refine ⟨new, hnew, fun x hx heq => ?_⟩
    cases (heq ▸ hfresh x hx).symm.trans hid

def twisted : Graph where
  nodes := #[
    ⟨.primitive (.binary .add .int32), [⟨1, 0⟩, ⟨1, 1⟩]⟩,
    ⟨.primitive (.shuffle .dup), [⟨2, 0⟩]⟩,
    ⟨.literal (.int 5), []⟩]

/-- A target that answers the first sum with no operand and fails with the second. -/
@[reducible] def faltering : Target where
  State := Nat
  Operand := Nat
  Function := Unit
  declare _ _ _ := pure ()
  beginBody _ := pure ()
  argument index _ := pure index
  literal _ := pure 5
  primitive _ _ := fun sums =>
    match sums with
    | 0 => .ok [] 1
    | 1 => .error (.unsupported .outsideBody) 2
    | _ => .ok [sums] (sums + 1)
  call _ _ := pure []
  finishBody _ _ := pure ()

def retried : Traced faltering :=
  let once := ((value twisted #[] ⟨0, 0⟩).attempt (start (T := faltering) twisted 0)).2
  let twice := ((node twisted #[] 0).attempt once).2
  ((value twisted #[] ⟨0, 0⟩).attempt twice).2

/-- The sum is there when it has been asked for the third time, its operand for long, and it stays. -/
theorem answered_once_faltering : twisted.Acyclic ∧ twisted.Closed ∧
    retried.calls.map Prod.fst = [2, 0, 0, 0] ∧ retried.cached? 0 = some [2] ∧
    ((node twisted #[] 0).attempt retried).2.cached? 0 = some [2] ∧
    ∃ new, ((node twisted #[] 0).attempt retried).2.calls = retried.calls ++ new ∧
      ∀ x ∈ new, x.1 ≠ 0 := by
  have hg : twisted.Acyclic := Graph.acyclic_of_rank (fun id => 3 - id) (by decide +kernel)
  have hc : twisted.Closed := by decide +kernel
  have hs : ReflTransGen (Step twisted) (start (T := faltering) twisted 0) retried :=
    ((ReflTransGen.single (.value #[] ⟨0, 0⟩)).tail (.node #[] 0)).tail (.value #[] ⟨0, 0⟩)
  have hcached : retried.cached? 0 = some [2] := by decide +kernel
  obtain ⟨-, -, -, -, -, -, hkept, -⟩ := answered_once hg hc hs (.single (.node #[] 0))
  obtain ⟨-, -, hlater⟩ := hkept 0 [2] hcached
  exact ⟨hg, hc, by decide +kernel, hcached, hlater⟩

end Traced
end StackEffect
