import StackEffect.Proofs.Draft.Tracking

/-!
What a run tells of the types. An argument is given the type of a use, and a run that passes this use
has a value of the type there: as long as what is popped has the types that are asked for, the
runtime stack admits the types that the arguments have been given (`Tracks.admits_popAll`). Where no
words are called, the only open types are those of unbound arguments, so that such a run also shows
that the types can be inferred (`Tracks.exists_popAll`).
-/
namespace StackEffect

def noWords : Vocabulary := fun _ => False

/-- Where no words are called, an open type is that of an argument without a type. -/
theorem Graph.isUnbound_of_outputType {g : Graph} {o : Output} (hg : g.Sound noWords)
    (ht : g.outputType o = .ok .any) : g.isUnbound (g.origin o).node = true := by
  obtain ⟨-, hp⟩ := Graph.outputType_eq_ok.mp ht
  generalize g.origin o = source at hp ⊢
  cases hn : g.node? source.node with
  | none => simp [Graph.producedType?, hn] at hp
  | some n =>
    have hword := hg.words hn
    rw [Graph.producedType?_of_node? hn] at hp
    obtain ⟨kind, inputs⟩ := n
    cases kind with
    | literal value => cases value <;> cases hp
    | call callee => exact hword.elim
    | primitive p =>
      simp only [Primitive.outputType?] at hp
      cases p with
      | shuffle s => simp [Primitive.resultType?] at hp
      | cast c => cases c <;> simp [Primitive.resultType?, Cast.target] at hp
      | binary op type =>
        simp only [Primitive.resultType?] at hp
        rcases hword with rfl | rfl <;> simp at hp
    | argument index declared =>
      obtain ⟨rfl, hl⟩ := hg.lookup_of_open (Option.some.inj hp)
      exact Graph.isUnbound_iff.mpr ⟨⟨index, inputs, hn⟩, hl⟩

def Askable (type : ValueType) : Prop := type = .any ∨ type.isConcrete = true

namespace Draft
variable {V : Vocabulary} {calls : Calls} {stack : List Value} {before out : String} {d e : Draft}
  {v : Valuation} {current rest values : List Value} {required : ValueType}
  {types : List ValueType} {word : String} {position : Nat} {o : Output} {os : List Output}
  {x : Value}

theorem nodes_eq (d : Draft) : d.graph.nodes.toList = d.graph.nodes.toList ++ [] :=
  (List.append_nil _).symm

theorem Tracks.faithful (h : d.Tracks calls stack before v current out) (hd : d.Sound V)
    (hcounted : calls.Counted) (hadmits : d.graph.Admits stack) : v.Faithful d.graph :=
  ((faithful_evaluate hd.graph.ordered hcounted hadmits.supplied d.nodes_eq).ok h.evaluated).2

theorem Tracks.supplies (h : d.Tracks calls stack before v current out) :
    v.Supplies d.graph stack :=
  ((supplies_evaluate d.nodes_eq).ok h.evaluated).2

theorem Tracks.typed (h : d.Tracks calls stack before v current out) (hd : d.Sound V)
    (hcounted : calls.Counted) (hcalls : calls.Sound V) (hadmits : d.graph.Admits stack) :
    v.Typed d.graph :=
  ((typed_evaluate hd.graph hcounted hcalls hadmits d.nodes_eq).ok h.evaluated).2.2

/-! ### Types that are given to arguments -/

theorem Tracks.admits_takeTop (h : d.Tracks calls stack before v (x :: rest) out) (hd : d.Sound V)
    (hadmits : d.graph.Admits stack) (hx : ValueType.compatible required x.type = true) :
    (d.takeTop required).2.graph.Admits stack := by
  obtain ⟨top, hreads, hcurrent⟩ := h.stack
  unfold Draft.takeTop
  cases hs : d.stack with
  | cons o os => exact hadmits
  | nil =>
    rw [hs] at hreads
    cases hreads
    have hget : stack[d.arguments.size]? = some x := by
      have hzero := congrArg (·[0]?) hcurrent
      simpa using hzero.symm
    intro id index declared inputs hn
    rcases Graph.node?_add_eq_some.mp hn with ⟨rfl, hkind⟩ | hold
    · cases hkind
      refine ⟨x, hget, fun type ht => ?_⟩
      rw [Graph.outputType_of_argument hn] at ht
      have hlookup : d.graph.bindings.lookup d.graph.size = none := hd.graph.lookup_size
      simp only [assume, Graph.argumentType, Graph.add, hlookup, Option.getD_none] at ht
      exact ht ▸ hx
    · obtain ⟨y, hy, hc⟩ := hadmits hold
      refine ⟨y, hy, fun type ht => hc type ?_⟩
      rw [Graph.outputType_of_argument hn] at ht
      rw [Graph.outputType_of_argument hold]
      exact ht

theorem Tracks.admits_accept (h : d.Tracks calls stack before v current out) (hd : d.Sound V)
    (hcounted : calls.Counted) (hadmits : d.graph.Admits stack) (hvalue : v.value? o = some x)
    (hx : ValueType.compatible required x.type = true)
    (ha : d.accept o required word position = .ok e) : e.graph.Admits stack := by
  rcases accept_eq_ok ha with ⟨rfl, -⟩ | ⟨-, hu, -, rfl⟩
  · exact hadmits
  · obtain ⟨⟨k, ins, hk⟩, -⟩ := Graph.isUnbound_iff.mp hu
    have hfaithful := h.faithful hd hcounted hadmits
    have horigin : v.value? (d.graph.origin o) = some x := by
      rw [← hfaithful.value?_origin hd.graph.ordered (Table.lt_size_of_value? hvalue), hvalue]
    intro id index declared inputs hbound
    have hn : d.graph.node? id = some ⟨.argument index declared, inputs⟩ := hbound
    obtain ⟨y, hy, hc⟩ := hadmits hn
    refine ⟨y, hy, fun type ht => ?_⟩
    rw [Graph.outputType_of_argument hbound, Graph.argumentType_bind] at ht
    by_cases hid : id = (d.graph.origin o).node
    · rw [if_pos hid] at ht
      have hzero : d.graph.origin o = ⟨id, 0⟩ := by
        obtain ⟨n, hn', hindex⟩ := (hfaithful.produces horigin).exists_node
        cases hk.symm.trans hn'
        have hi : (d.graph.origin o).index = 0 := Nat.lt_one_iff.mp hindex
        rw [hid, ← hi]
      rw [hzero] at horigin
      have hyx := (h.supplies hn (Table.lt_size_of_value? horigin)).symm.trans horigin
      cases hy.symm.trans hyx
      exact ht ▸ hx
    · rw [if_neg hid] at ht
      exact hc type ((Graph.outputType_of_argument hn).mpr ht)

/-- What is popped at run time has the types that arguments are given while the body is read. -/
theorem Tracks.admits_popAll (h : d.Tracks calls stack before v (values ++ rest) out)
    (hd : d.Sound V) (hcounted : calls.Counted) (hadmits : d.graph.Admits stack)
    (hfits : Fits types values) (hp : Draft.popAll types word position d = .ok os e) :
    e.graph.Admits stack := by
  induction hfits generalizing d v os with
  | nil =>
    cases hp
    exact hadmits
  | @cons type x types values hx hfits ih =>
    rw [popAll_cons] at hp
    obtain ⟨o, d₁, h₁, hp⟩ := Action.bind_eq_ok.mp hp
    obtain ⟨os, d₂, h₂, hp⟩ := Action.bind_eq_ok.mp hp
    cases hp
    obtain ⟨rfl, ha⟩ := pop_eq_ok.mp h₁
    obtain ⟨v₀, htracks₀, hvalue₀, -⟩ := h.takeTop type
    have hadmits₁ : d₁.graph.Admits stack := htracks₀.admits_accept (hd.takeTop type).1 hcounted
      (h.admits_takeTop hd hadmits hx) hvalue₀ hx ha
    obtain ⟨v₁, htracks₁, -⟩ := h.pop h₁
    intro id index declared inputs hn
    exact ih htracks₁ (hd.pop h₁).1 hadmits₁ h₂ hn

/-! ### Types that can be inferred -/

theorem Tracks.exists_accept (h : d.Tracks calls stack before v current out) (hd : d.Sound noWords)
    (hcounted : calls.Counted) (hadmits : d.graph.Admits stack) (hvalue : v.value? o = some x)
    (hx : ValueType.compatible required x.type = true) (hr : Askable required) :
    ∃ e, d.accept o required word position = .ok e := by
  have hcalls : calls.Sound noWords := fun hc => hc.elim
  have hproduces := (h.faithful hd hcounted hadmits).produces hvalue
  obtain ⟨actual, ha⟩ := hd.graph.ordered.exists_outputType hproduces
  have hactual := h.typed hd hcounted hcalls hadmits hvalue ha
  unfold accept
  simp only [ha, bind, Except.bind]
  by_cases hc : ValueType.compatible required actual = true
  · exact ⟨d, by simp [hc, pure, Except.pure]⟩
  · have hany : actual = .any := by
      by_contra hne
      have htype := ValueType.eq_of_compatible hne hactual
      exact hc (htype ▸ hx)
    have hconcrete : required.isConcrete = true := by
      rcases hr with rfl | hr
      · simp at hc
      · exact hr
    rw [hany] at ha hc
    have hu := Graph.isUnbound_of_outputType hd.graph ha
    exact ⟨_, by simp [hc, hany, hconcrete, hu, pure, Except.pure]; rfl⟩

/-- Where no words are called, whatever can be popped at run time can be popped while the body is
read. -/
theorem Tracks.exists_popAll (h : d.Tracks calls stack before v (values ++ rest) out)
    (hd : d.Sound noWords) (hcounted : calls.Counted) (hadmits : d.graph.Admits stack)
    (hfits : Fits types values) (htypes : ∀ type ∈ types, Askable type) (word : String)
    (position : Nat) : ∃ os e, Draft.popAll types word position d = .ok os e := by
  induction hfits generalizing d v with
  | nil => exact ⟨[], d, rfl⟩
  | @cons type x types values hx hfits ih =>
    obtain ⟨v₀, htracks₀, hvalue₀, -⟩ := h.takeTop type
    have hadmits₀ : (d.takeTop type).2.graph.Admits stack := h.admits_takeTop hd hadmits hx
    obtain ⟨d₁, ha⟩ := htracks₀.exists_accept (hd.takeTop type).1 hcounted hadmits₀ hvalue₀ hx
      (htypes type List.mem_cons_self)
    have h₁ : Draft.pop type word position d = .ok _ d₁ := pop_eq_ok.mpr ⟨rfl, ha⟩
    obtain ⟨v₁, htracks₁, -⟩ := h.pop h₁
    have hadmits₁ : d₁.graph.Admits stack :=
      htracks₀.admits_accept (hd.takeTop type).1 hcounted hadmits₀ hvalue₀ hx ha
    obtain ⟨os, e, h₂⟩ := ih htracks₁ (hd.pop h₁).1 hadmits₁ fun type' ht' =>
      htypes type' (List.mem_cons_of_mem type ht')
    exact ⟨_, e, by rw [popAll_cons, Action.bind_of_ok h₁, Action.bind_of_ok h₂]; rfl⟩

end Draft
end StackEffect
