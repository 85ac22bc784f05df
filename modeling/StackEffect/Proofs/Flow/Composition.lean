import StackEffect.Proofs.Flow.Source
import StackEffect.Proofs.Pointwise

/-!
The flow of types through a body. A body takes values from the stack of its caller and leaves values
there that it has made or taken. What follows a body finds what the body has left (`Flow.andThen`),
and it is all the same whether the parts of a body follow one by one or as a whole
(`Flow.andThen_assoc`).
-/
namespace StackEffect

/-- The types of the arguments, and what is left on the stack; both start from the top. -/
structure Flow where
  takes : List ValueType := []
  leaves : List Source := []
deriving DecidableEq

namespace Flow

/-- Takes the top value, or a new argument if nothing is left, for a use that asks for `required`. -/
def pop (required : ValueType) (F : Flow) : Option (Source × Flow) :=
  match F.leaves with
  | [] => some (.taken F.takes.length, { F with takes := F.takes ++ [required] })
  | s :: rest => (s.accept required F.takes).map fun takes => (s, ⟨takes, rest⟩)

def popAll : List ValueType → Flow → Option (List Source × Flow)
  | [], F => some ([], F)
  | type :: types, F => (F.pop type).bind fun x => (popAll types x.2).map fun y => (x.1 :: y.1, y.2)

/-- What the flow leaves where `sources` stand for its arguments, on top of what is left below. -/
def onto (F : Flow) (sources : List Source) (below : Flow) : Flow :=
  { below with leaves := F.leaves.map (Source.via sources) ++ below.leaves }

/-- The flow of a body that goes on with a part whose flow is `E`. -/
def andThen (F E : Flow) : Option Flow :=
  (F.popAll E.takes).map fun x => E.onto x.1 x.2

/-- All arguments on the stack have been taken. -/
def Valid (F : Flow) : Prop := ∀ s ∈ F.leaves, s.Within F.takes.length

theorem valid_empty : ({} : Flow).Valid := fun _ hs => nomatch hs

variable {F G : Flow} {s : Source} {sources : List Source} {required : ValueType}
  {types : List ValueType}

theorem pop_of_nil (h : F.leaves = []) (required : ValueType) : F.pop required =
    some (.taken F.takes.length, { F with takes := F.takes ++ [required] }) := by
  simp only [pop, h]

theorem pop_of_cons {rest : List Source} (h : F.leaves = s :: rest) (required : ValueType) :
    F.pop required = (s.accept required F.takes).map fun takes => (s, ⟨takes, rest⟩) := by
  simp only [pop, h]

theorem popAll_cons (type : ValueType) (types : List ValueType) (F : Flow) :
    F.popAll (type :: types) = (F.pop type).bind fun x =>
      (x.2.popAll types).map fun y => (x.1 :: y.1, y.2) := rfl

theorem popAll_append (types types' : List ValueType) (F : Flow) :
    F.popAll (types ++ types') = (F.popAll types).bind fun x =>
      (x.2.popAll types').map fun y => (x.1 ++ y.1, y.2) := by
  induction types generalizing F with
  | nil => simp [popAll]
  | cons type types ih =>
    simp only [List.cons_append, popAll_cons, ih]
    cases F.pop type with
    | none => rfl
    | some x =>
      obtain ⟨s, G⟩ := x
      simp only [Option.bind_some]
      cases G.popAll types with
      | none => rfl
      | some x => simp [Function.comp_def]

/-- What is known once a value has been taken. -/
structure Popped (required : ValueType) (s : Source) (F G : Flow) : Prop where
  valid : G.Valid
  within : s.Within G.takes.length
  compatible : ValueType.compatible required (s.type G.takes) = true
  settles : Source.Settles F.takes G.takes
  length_le : F.takes.length ≤ G.takes.length

theorem Valid.pop (hF : F.Valid) (h : F.pop required = some (s, G)) : Popped required s F G := by
  cases hl : F.leaves with
  | nil =>
    rw [pop_of_nil hl] at h
    cases h
    have hlen : (F.takes ++ [required]).length = F.takes.length + 1 := by simp
    refine ⟨fun s hs => ?_, ?_, ?_, Source.settles_append _ _, hlen ▸ Nat.le_succ _⟩
    · rw [hl] at hs
      cases hs
    · exact hlen ▸ Nat.lt_succ_self F.takes.length
    · simp [Source.type]
  | cons t rest =>
    rw [pop_of_cons hl] at h
    obtain ⟨takes, ht, h⟩ := Option.map_eq_some_iff.mp h
    cases h
    have hlen := Source.length_accept ht
    have hwithin : ∀ u ∈ s :: rest, u.Within takes.length := fun u hu => hlen ▸ hF u (hl ▸ hu)
    exact ⟨fun u hu => hwithin u (List.mem_cons_of_mem s hu), hwithin s List.mem_cons_self,
      Source.compatible_of_accept ht, Source.settles_accept ht, Nat.le_of_eq hlen.symm⟩

/-- What is known once a value has been taken for each type. -/
structure PoppedAll (types : List ValueType) (sources : List Source) (F G : Flow) : Prop where
  valid : G.Valid
  within : ∀ s ∈ sources, s.Within G.takes.length
  compatible : List.Forall₂ (fun type s => ValueType.compatible type (s.type G.takes) = true)
    types sources
  settles : Source.Settles F.takes G.takes
  length_le : F.takes.length ≤ G.takes.length

theorem Valid.popAll (hF : F.Valid) (h : F.popAll types = some (sources, G)) :
    PoppedAll types sources F G := by
  induction types generalizing F sources with
  | nil =>
    cases h
    exact ⟨hF, by simp, .nil, .refl _, Nat.le_refl _⟩
  | cons type types ih =>
    rw [popAll_cons] at h
    obtain ⟨⟨s, F₁⟩, h₁, h⟩ := Option.bind_eq_some_iff.mp h
    obtain ⟨⟨ss, F₂⟩, h₂, h⟩ := Option.map_eq_some_iff.mp h
    cases h
    have hpop := hF.pop h₁
    have hrest := ih hpop.valid h₂
    refine ⟨hrest.valid, ?_, .cons (hrest.settles _ _ hpop.compatible) hrest.compatible,
      hpop.settles.trans hrest.settles, Nat.le_trans hpop.length_le hrest.length_le⟩
    intro u hu
    rcases List.mem_cons.mp hu with rfl | hu
    · exact hpop.within.mono hrest.length_le
    · exact hrest.within u hu

/-! ### Late uses and early ones -/

/-- The flow after one of its values has been used where `required` is asked for. -/
def use (required : ValueType) (s : Source) (F : Flow) : Option Flow :=
  (s.accept required F.takes).map fun takes => { F with takes }

theorem use_pop (hs : s.Within F.takes.length) (required required' : ValueType) :
    (F.use required s).bind (·.pop required') =
      (F.pop required').bind fun x => (x.2.use required s).map (x.1, ·) := by
  cases hl : F.leaves with
  | nil =>
    rw [pop_of_nil hl, Option.bind_some]
    simp only [use, Source.accept_append hs]
    cases h : s.accept required F.takes with
    | none => rfl
    | some takes =>
      have hlen := Source.length_accept h
      simp [pop, hl, hlen]
  | cons t rest =>
    have hcomm := Source.accept_comm s t required required' F.takes
    have hboth := congrArg (Option.map fun takes => (t, (⟨takes, rest⟩ : Flow))) hcomm
    rw [pop_of_cons hl]
    simpa [Option.map_bind, Option.bind_map, Function.comp_def, pop, hl, use] using hboth

theorem use_popAll (hF : F.Valid) (hs : s.Within F.takes.length) (required : ValueType)
    (types : List ValueType) : (F.use required s).bind (·.popAll types) =
      (F.popAll types).bind fun x => (x.2.use required s).map (x.1, ·) := by
  induction types generalizing F with
  | nil => exact Option.map_eq_bind.symm
  | cons type types ih =>
    have hstep := use_pop hs required type
    calc (F.use required s).bind (·.popAll (type :: types))
        = ((F.use required s).bind (·.pop type)).bind fun x =>
            (x.2.popAll types).map fun y => (x.1 :: y.1, y.2) := by
          rw [Option.bind_assoc]
          rfl
      _ = (F.pop type).bind fun x => ((x.2.use required s).bind (·.popAll types)).map fun y =>
            (x.1 :: y.1, y.2) := by
          rw [hstep, Option.bind_assoc]
          refine Option.bind_congr fun x _ => ?_
          rw [Option.bind_map, Option.map_bind]
          rfl
      _ = (F.popAll (type :: types)).bind fun x => (x.2.use required s).map (x.1, ·) := by
          rw [popAll_cons, Option.bind_assoc]
          refine Option.bind_congr fun x hx => ?_
          have hpop := hF.pop hx
          rw [ih hpop.valid (hs.mono hpop.length_le)]
          simp [Option.map_bind, Option.bind_map, Function.comp_def]

theorem pop_of_concrete (hF : F.Valid) (hr : required.isConcrete = true) :
    F.pop required = (F.pop .any).bind fun x => (x.2.use required x.1).map (x.1, ·) := by
  cases hl : F.leaves with
  | nil =>
    have hget : (F.takes ++ [ValueType.any])[F.takes.length]? = some .any := by simp
    rw [pop_of_nil hl, pop_of_nil hl, Option.bind_some, use, Source.accept_taken hget,
      ValueType.meet?_of_concrete hr]
    simp
  | cons s rest =>
    have hs : s.Within F.takes.length := hF s (hl ▸ List.mem_cons_self)
    rw [pop_of_cons hl, pop_of_cons hl, Source.accept_of_compatible hs (ValueType.compatible_any _)]
    simp [use, Function.comp_def]

theorem length_popAll (h : F.popAll types = some (sources, G)) : sources.length = types.length := by
  induction types generalizing F sources with
  | nil =>
    cases h
    rfl
  | cons type types ih =>
    rw [popAll_cons] at h
    obtain ⟨x, -, h⟩ := Option.bind_eq_some_iff.mp h
    obtain ⟨⟨ss, F₂⟩, h₂, h⟩ := Option.map_eq_some_iff.mp h
    cases h
    rw [List.length_cons, List.length_cons, ih h₂]

/-- A value that was taken with an open type may be used later on. -/
theorem popAll_set (hF : F.Valid) {index : Nat} (hi : types[index]? = some .any)
    (hr : required.isConcrete = true) : F.popAll (types.set index required) =
      (F.popAll types).bind fun x =>
        (x.2.use required ((Source.taken index).via x.1)).map (x.1, ·) := by
  induction types generalizing F index with
  | nil => cases hi
  | cons type types ih =>
    cases index with
    | zero =>
      cases hi
      rw [List.set_cons_zero, popAll_cons, popAll_cons, pop_of_concrete hF hr, Option.bind_assoc,
        Option.bind_assoc]
      refine Option.bind_congr fun x hx => ?_
      have hpop := hF.pop hx
      have huse := congrArg (Option.map fun y : List Source × Flow => (x.1 :: y.1, y.2))
        (use_popAll hpop.valid hpop.within required types)
      simpa [Option.map_bind, Option.bind_map, Function.comp_def, Source.via] using huse
    | succ index =>
      rw [List.set_cons_succ, popAll_cons, popAll_cons, Option.bind_assoc]
      refine Option.bind_congr fun x hx => ?_
      rw [ih (hF.pop hx).valid hi]
      simp [Option.map_bind, Option.bind_map, Function.comp_def, Source.via]

theorem PoppedAll.via (h : PoppedAll types sources F G) (hs : s.Within types.length) :
    (s.via sources).Within G.takes.length ∧
      ValueType.compatible (s.type types) ((s.via sources).type G.takes) = true := by
  cases s with
  | made type => exact ⟨trivial, ValueType.compatible_self type⟩
  | taken index =>
    have hlt : index < types.length := hs
    obtain ⟨t, ht, hc⟩ := Pointwise.right_of_left h.compatible (List.getElem?_eq_getElem hlt)
    have hvia : (Source.taken index).via sources = t := by rw [Source.via, ht, Option.getD_some]
    have htype : (Source.taken index).type types = types[index] := by
      rw [Source.type, List.getElem?_eq_getElem hlt, Option.getD_some]
    rw [hvia, htype]
    exact ⟨h.within t (List.mem_of_getElem? ht), hc⟩

/-- A use of an argument may wait until there is something that stands for the argument. -/
theorem popAll_accept (hF : F.Valid) (hs : s.Within types.length) {types' : List ValueType}
    (h : s.accept required types = some types') : F.popAll types' =
      (F.popAll types).bind fun x => (x.2.use required (s.via x.1)).map (x.1, ·) := by
  by_cases hc : ValueType.compatible required (s.type types) = true
  · -- The value has the type already, and what stands for it does so too.
    cases h.symm.trans (Source.accept_of_compatible hs hc)
    calc F.popAll types = (F.popAll types).bind some := (Option.bind_fun_some _).symm
      _ = (F.popAll types).bind fun x => (x.2.use required (s.via x.1)).map (x.1, ·) := by
        refine Option.bind_congr fun x hx => ?_
        obtain ⟨hwithin, hvia⟩ := (hF.popAll hx).via hs
        rw [use, Source.accept_of_compatible hwithin (ValueType.compatible_trans hc hvia)]
        rfl
  · cases s with
    | made type => exact absurd (Source.accept_made_eq_some.mp h).1 hc
    | taken index =>
      obtain ⟨actual, type, ha, hm, rfl⟩ := Source.accept_taken_eq_some.mp h
      have hactual : (Source.taken index).type types = actual := by
        rw [Source.type, ha, Option.getD_some]
      rcases ValueType.meet?_eq_some hm with ⟨-, hc'⟩ | ⟨rfl, hr, rfl⟩
      · exact absurd (hactual ▸ hc') hc
      · exact popAll_set hF ha hr

/-! ### One part after the other -/

variable {E E' : Flow}

/-- What a part takes from what another part has left is taken by both together. -/
theorem pop_onto (hF : F.Valid) (hE : E.Valid) (h : E.pop required = some (s, E')) :
    ((F.popAll E.takes).bind fun x => ((E.onto x.1 x.2).pop required).map (x.1, ·)) =
      (F.popAll E'.takes).map fun y =>
        (y.1.take E.takes.length, s.via y.1, E'.onto y.1 y.2) := by
  cases hl : E.leaves with
  | nil =>
    rw [pop_of_nil hl] at h
    cases h
    rw [popAll_append, Option.map_bind]
    refine Option.bind_congr fun x hx => ?_
    have hlen := length_popAll hx
    cases hp : x.2.pop required with
    | none => simp [onto, hl, popAll, hp]
    | some y => simp [onto, hl, popAll, hp, Source.via, ← hlen]
  | cons t rest =>
    rw [pop_of_cons hl] at h
    obtain ⟨takes, ht, h⟩ := Option.map_eq_some_iff.mp h
    cases h
    rw [popAll_accept hF (hE s (hl ▸ List.mem_cons_self)) ht, Option.map_bind]
    refine Option.bind_congr fun x hx => ?_
    have hlen := length_popAll hx
    cases ha : (s.via x.1).accept required x.2.takes with
    | none => simp [onto, hl, pop, use, ha]
    | some takes' => simp [onto, hl, pop, use, ha, ← hlen]

theorem popAll_onto (hF : F.Valid) (hE : E.Valid) (h : E.popAll types = some (sources, E')) :
    ((F.popAll E.takes).bind fun x => ((E.onto x.1 x.2).popAll types).map (x.1, ·)) =
      (F.popAll E'.takes).map fun y =>
        (y.1.take E.takes.length, sources.map (·.via y.1), E'.onto y.1 y.2) := by
  induction types generalizing E sources with
  | nil =>
    cases h
    rw [Option.map_eq_bind]
    refine Option.bind_congr fun x hx => ?_
    simp [popAll, ← length_popAll hx]
  | cons type types ih =>
    rw [popAll_cons] at h
    obtain ⟨⟨s, E₁⟩, h₁, h⟩ := Option.bind_eq_some_iff.mp h
    obtain ⟨⟨ss, E₂⟩, h₂, h⟩ := Option.map_eq_some_iff.mp h
    cases h
    have hpop := hE.pop h₁
    have hfirst := pop_onto hF hE h₁
    have hrest := ih hpop.valid h₂
    -- The first value is taken before the others, from what stands for its arguments by then.
    calc ((F.popAll E.takes).bind fun x =>
          ((E.onto x.1 x.2).popAll (type :: types)).map (x.1, ·))
        = ((F.popAll E.takes).bind fun x => ((E.onto x.1 x.2).pop type).map (x.1, ·)).bind
            fun z => (z.2.2.popAll types).map fun y => (z.1, z.2.1 :: y.1, y.2) := by
          simp [popAll_cons, Option.bind_assoc, Option.map_bind, Option.bind_map,
            Function.comp_def]
      _ = ((F.popAll E₁.takes).bind fun x => ((E₁.onto x.1 x.2).popAll types).map (x.1, ·)).map
            fun w => (w.1.take E.takes.length, s.via w.1 :: w.2.1, w.2.2) := by
          rw [hfirst]
          simp [Option.map_bind, Option.bind_map, Function.comp_def]
      _ = (F.popAll E₂.takes).map fun y =>
            (y.1.take E.takes.length, (s :: ss).map (·.via y.1), E₂.onto y.1 y.2) := by
          rw [hrest, Option.map_map]
          refine congrArg (Option.map · _) (funext fun y => ?_)
          have hvia : s.via (y.1.take E₁.takes.length) = s.via y.1 := by
            cases s with
            | made type => rfl
            | taken index =>
              have hlt : index < E₁.takes.length := hpop.within
              simp [Source.via, List.getElem?_take_of_lt hlt]
          simp [hvia, List.take_take, Nat.min_eq_left hpop.length_le]

theorem Valid.onto (hE : E.Valid) (hF : F.Valid) (h : F.popAll E.takes = some (sources, G)) :
    (E.onto sources G).Valid := by
  have hpopped := hF.popAll h
  intro s hs
  rcases List.mem_append.mp hs with hs | hs
  · obtain ⟨t, ht, rfl⟩ := List.mem_map.mp hs
    exact (hpopped.via (hE t ht)).1
  · exact hpopped.valid s hs

theorem Valid.andThen (hF : F.Valid) (hE : E.Valid) (h : F.andThen E = some G) : G.Valid := by
  obtain ⟨⟨ss, F'⟩, hp, rfl⟩ := Option.map_eq_some_iff.mp h
  exact hE.onto hF hp

theorem andThen_empty (F : Flow) : F.andThen {} = some F := by
  simp [andThen, popAll, onto]

/-- The parts of a body may follow one by one or as a whole. -/
theorem andThen_assoc {X : Flow} (hX : X.Valid) (hF : F.Valid) (hE : E.Valid)
    (h : F.andThen E = some G) : (X.andThen F).bind (·.andThen E) = X.andThen G := by
  obtain ⟨⟨ss, F'⟩, hp, rfl⟩ := Option.map_eq_some_iff.mp h
  have hparts := congrArg (Option.map fun z => E.onto z.2.1 z.2.2) (popAll_onto hX hF hp)
  have hpopped := hF.popAll hp
  calc (X.andThen F).bind (·.andThen E)
      = ((X.popAll F.takes).bind fun x => ((F.onto x.1 x.2).popAll E.takes).map (x.1, ·)).map
          fun z => E.onto z.2.1 z.2.2 := by
        simp [andThen, Option.map_bind, Option.bind_map, Function.comp_def]
    _ = (X.popAll F'.takes).map fun y => E.onto (ss.map (·.via y.1)) (F'.onto y.1 y.2) := by
        rw [hparts, Option.map_map]
        rfl
    _ = X.andThen (E.onto ss F') := by
        rw [andThen]
        refine congrArg (Option.map · _) (funext fun y => ?_)
        have hvia : ∀ s ∈ E.leaves, s.via (ss.map (·.via y.1)) = (s.via ss).via y.1 := by
          intro s hs
          cases s with
          | made type => rfl
          | taken index =>
            have hlt : index < ss.length := by
              rw [length_popAll hp]
              exact hE _ hs
            simp [Source.via, hlt]
        simp only [onto, List.map_append, List.map_map, List.append_assoc, Flow.mk.injEq, true_and]
        refine congrArg (· ++ _) (List.map_congr_left fun s hs => ?_)
        exact hvia s hs

end Flow

end StackEffect
