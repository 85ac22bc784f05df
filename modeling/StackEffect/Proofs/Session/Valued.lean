import StackEffect.Proofs.Session.Flow

/-!
The lack of a value. No constant has its type and no operation asks for it or leaves it, so that it is
missing from the signatures of all words that a session knows (`Reachable.valued`).
-/
namespace StackEffect

theorem getD_getElem?_ne {α : Type} {xs : List α} {x y : α} (h : y ∉ xs) (hx : x ≠ y) (i : Nat) :
    (xs[i]?).getD x ≠ y := by
  cases hi : xs[i]? with
  | none => exact hx
  | some a => exact fun heq => h (heq ▸ List.mem_of_getElem? hi)

/-- No value on the stack is of the type that stands for the lack of one. -/
structure Flow.Valued (F : Flow) : Prop where
  takes : .null ∉ F.takes
  leaves : .made .null ∉ F.leaves

theorem Source.null_not_mem_accept {s : Source} {required : ValueType} {takes takes' : List ValueType}
    (h : s.accept required takes = some takes') (hr : required ≠ .null) (ht : .null ∉ takes) :
    .null ∉ takes' := by
  cases s with
  | made type =>
    obtain ⟨-, rfl⟩ := accept_made_eq_some.mp h
    exact ht
  | taken index =>
    obtain ⟨actual, type, hactual, hmeet, rfl⟩ := accept_taken_eq_some.mp h
    intro hmem
    rcases List.mem_or_eq_of_mem_set hmem with hmem | rfl
    · exact ht hmem
    · rcases ValueType.meet?_eq_some hmeet with ⟨rfl, -⟩ | ⟨-, -, rfl⟩
      · exact ht (List.mem_of_getElem? hactual)
      · exact hr rfl

theorem Source.via_ne_null {s : Source} {sources : List Source} (hs : s ≠ .made .null)
    (h : .made .null ∉ sources) : s.via sources ≠ .made .null := by
  cases s with
  | made type => exact hs
  | taken index => exact getD_getElem?_ne h (by simp) index

namespace Flow
variable {F G E : Flow} {s : Source} {required : ValueType} {types : List ValueType}
  {sources : List Source}

theorem Valued.pop (hF : F.Valued) (hr : required ≠ .null) (h : F.pop required = some (s, G)) :
    s ≠ .made .null ∧ G.Valued := by
  cases hl : F.leaves with
  | nil =>
    rw [pop_of_nil hl] at h
    cases h
    refine ⟨by simp, fun hmem => ?_, hF.leaves⟩
    rcases List.mem_append.mp hmem with hmem | hmem
    · exact hF.takes hmem
    · exact hr (List.mem_singleton.mp hmem).symm
  | cons t rest =>
    rw [pop_of_cons hl] at h
    obtain ⟨takes, ht, h⟩ := Option.map_eq_some_iff.mp h
    cases h
    have hleaves := hF.leaves
    rw [hl] at hleaves
    obtain ⟨hs, hrest⟩ := List.ne_and_not_mem_of_not_mem_cons hleaves
    exact ⟨hs.symm, Source.null_not_mem_accept ht hr hF.takes, hrest⟩

theorem Valued.popAll (hF : F.Valued) (htypes : .null ∉ types)
    (h : F.popAll types = some (sources, G)) : .made .null ∉ sources ∧ G.Valued := by
  induction types generalizing F sources with
  | nil =>
    cases h
    exact ⟨List.not_mem_nil, hF⟩
  | cons type types ih =>
    obtain ⟨htype, htypes⟩ := List.ne_and_not_mem_of_not_mem_cons htypes
    rw [popAll_cons] at h
    obtain ⟨⟨s, F₁⟩, h₁, h⟩ := Option.bind_eq_some_iff.mp h
    obtain ⟨⟨ss, F₂⟩, h₂, h⟩ := Option.map_eq_some_iff.mp h
    cases h
    obtain ⟨hs, hF₁⟩ := hF.pop htype.symm h₁
    obtain ⟨hss, hG⟩ := ih hF₁ htypes h₂
    exact ⟨List.not_mem_cons_of_ne_of_not_mem hs.symm hss, hG⟩

theorem Valued.andThen (hF : F.Valued) (hE : E.Valued) (h : F.andThen E = some G) : G.Valued := by
  obtain ⟨⟨sources, below⟩, hpop, rfl⟩ := Option.map_eq_some_iff.mp h
  obtain ⟨hsources, hbelow⟩ := hF.popAll hE.takes hpop
  refine ⟨hbelow.takes, fun hmem => ?_⟩
  rcases List.mem_append.mp hmem with hmem | hmem
  · obtain ⟨s, hs, heq⟩ := List.mem_map.mp hmem
    exact Source.via_ne_null (fun hnull => hE.leaves (hnull ▸ hs)) hsources heq
  · exact hbelow.leaves hmem

theorem Valued.along {ops : List Operation} (hF : F.Valued) (hops : ∀ op ∈ ops, op.flow.Valued)
    (h : F.along ops = some G) : G.Valued := by
  induction ops generalizing F with
  | nil =>
    cases h
    exact hF
  | cons op ops ih =>
    obtain ⟨hop, hops⟩ := List.forall_mem_cons.mp hops
    obtain ⟨F₁, h₁, h⟩ := Option.bind_eq_some_iff.mp h
    exact ih (hF.andThen hop h₁) hops h

end Flow

theorem NodeKind.null_not_mem_leaves {V : Vocabulary} {kind : NodeKind} {inputs : List Source}
    (hk : V.Has kind) (hV : ∀ c, V c → c.signature.Valued) (hinputs : .made .null ∉ inputs) :
    .made .null ∉ kind.leaves inputs := by
  intro hmem
  obtain ⟨index, -, heq⟩ := List.mem_map.mp (List.mem_reverse.mp hmem)
  unfold source at heq
  cases hp : Graph.repeatedPlace? kind index with
  | some place =>
    simp only [hp] at heq
    exact getD_getElem?_ne hinputs (by simp) place heq
  | none =>
    simp only [hp] at heq
    cases kind with
    | argument number type => cases heq
    | literal value => cases value <;> cases heq
    | primitive p =>
      have htype := Source.made.inj heq
      unfold Primitive.outputType? at htype
      split at htype
      · cases p with
        | shuffle s => cases htype
        | binary op type =>
          have hregular : type = .int32 ∨ type = .float := hk
          rcases hregular with rfl | rfl <;> cases htype
        | cast c => cases c <;> cases htype
      · cases htype
    | call callee =>
      exact getD_getElem?_ne (hV callee hk).2 (by simp) index (Source.made.inj heq)

theorem Source.null_not_mem_arguments (count : Nat) : .made .null ∉ arguments count := by
  simp [arguments]

/-- A definition has the lack of a value in its signature if it takes or makes one. -/
theorem Definition.Sound.valued_flow {V : Vocabulary} {f : Definition} {s : Signature}
    (hf : f.Sound V) (hs : f.signature = .ok s) (h : s.Valued) : f.flow.Valued := by
  cases hs.symm.trans hf.signature_eq
  refine ⟨h.1, fun hmem => h.2 ?_⟩
  exact List.mem_reverse.mpr (List.mem_map.mpr ⟨_, hmem, rfl⟩)

theorem Definition.Sound.valued_signature {V : Vocabulary} {f : Definition} {s : Signature}
    (hf : f.Sound V) (hs : f.signature = .ok s) (h : f.flow.Valued) : s.Valued := by
  cases hs.symm.trans hf.signature_eq
  refine ⟨h.takes, fun hmem => ?_⟩
  obtain ⟨source, hsource, htype⟩ := List.mem_map.mp (List.mem_reverse.mp hmem)
  cases source with
  | made type =>
    have hnull : type = .null := htype
    exact h.leaves (hnull ▸ hsource)
  | taken index => exact getD_getElem?_ne h.takes (by simp) index htype

theorem Operation.Sound.valued_flow {V : Vocabulary} {op : Operation} (hop : op.Sound V)
    (hV : ∀ c, V c → c.signature.Valued) (hsplice : ∀ f, op = .splice f → f.flow.Valued) :
    op.flow.Valued := by
  cases op with
  | literal value =>
    have hk : V.Has (.literal value) := trivial
    exact ⟨List.not_mem_nil, NodeKind.null_not_mem_leaves hk hV List.not_mem_nil⟩
  | primitive p =>
    have hk : V.Has (.primitive p) := hop
    refine ⟨fun hmem => ?_, NodeKind.null_not_mem_leaves hk hV ?_⟩
    · have hnull := (List.eq_of_mem_replicate hmem).symm
      cases p with
      | shuffle s => cases hnull
      | binary op type =>
        have hregular : type = .int32 ∨ type = .float := hop
        obtain rfl : type = .null := hnull
        rcases hregular with h | h <;> cases h
      | cast c => cases c <;> cases hnull
    · exact fun hmem => Source.null_not_mem_arguments _ (List.mem_reverse.mp hmem)
  | call callee =>
    have hk : V.Has (.call callee) := hop
    exact ⟨(hV callee hop).1, NodeKind.null_not_mem_leaves hk hV (Source.null_not_mem_arguments _)⟩
  | splice f => exact hsplice f rfl

def Dictionary.Valued (d : Dictionary) : Prop :=
  ∀ id w s, d.word? id = some w → w.signature = .ok s → s.Valued

namespace Dictionary
variable {d : Dictionary}

theorem Valued.vocabulary (h : d.Valued) : ∀ c, d.vocabulary c → c.signature.Valued := by
  rintro c ⟨w, hw, -, -, hs⟩
  exact h _ _ _ hw hs

theorem Valued.enter {w : Word} (h : d.Valued) (hw : ∀ s, w.signature = .ok s → s.Valued) :
    (d.enter w).Valued := by
  intro id v s hv hs
  rcases word?_enter_eq_some.mp hv with ⟨-, rfl⟩ | hv
  · exact hw s hs
  · exact h _ _ _ hv hs

theorem Valued.setInline (h : d.Valued) (id : WordId) (mark : Bool) : (d.setInline id mark).Valued := by
  intro i w s hw hs
  obtain ⟨v, hv, heq, -⟩ := word?_setInline hw
  rw [heq] at hs
  exact h _ _ _ hv hs

theorem valued_withBuiltins : withBuiltins.Valued := by
  intro id w s hw hs
  obtain ⟨x, -, rfl⟩ := word?_withBuiltins hw
  cases hs

end Dictionary

namespace Session
variable {T : Target} {d : Dictionary}

theorem valued_operations {body : List Token} {ops : List Operation} (hd : d.Sound) (hv : d.Valued)
    (hops : body.mapM (operation d) = .ok ops) : ∀ op ∈ ops, op.flow.Valued := by
  intro op hop
  refine (sound_operations hd hops op hop).valued_flow hv.vocabulary fun f hsplice => ?_
  obtain ⟨i, hi⟩ := List.mem_iff_getElem?.mp hop
  obtain ⟨t, -, ht⟩ := Pointwise.left_of_right (Except.mapM_eq_ok.mp hops) hi
  subst hsplice
  cases resolves_of_ok ht with
  | splice hn hk _ =>
    have hw := word?_of_named hn
    have hfound := hd.compiled hw hk
    obtain ⟨s', hs'⟩ := hfound.exists_signature
    exact hfound.valued_flow hs' (hv _ _ _ hw ((Word.signature_of_compiled hk).trans hs'))

theorem valued_toDefinition {name : String} {body : List Token} {draft : Draft} {s : Signature}
    (hd : d.Sound) (hv : d.Valued) (hread : readBody d body {} = .ok () draft)
    (hs : (draft.toDefinition name body).signature = .ok s) : s.Valued := by
  have hf : (draft.toDefinition name body).Sound d.vocabulary := sound_toDefinition hd hread
  obtain ⟨ops, hops, halong⟩ := (readBody_iff hd).mp ⟨draft, hread, rfl⟩
  refine hf.valued_signature hs ?_
  rw [Draft.flow_toDefinition]
  exact Flow.Valued.along ⟨List.not_mem_nil, List.not_mem_nil⟩ (valued_operations hd hv hops) halong

theorem lasting_valued : Lasting fun (d : Dictionary) (_ : T.State) (_ : FunctionTable T) =>
    d.Sound ∧ d.Valued where
  markInline id hi := ⟨hi.1.setInline id true, hi.2.setInline id true⟩
  execute _ _ hi := hi
  takeOutput hi := hi
  declare hi hv _ := ⟨hi.1.enter_external .., hi.2.enter fun s hs => by
    cases hs
    exact hv⟩
  declareFailed hi _ := hi
  abandon name hi := ⟨hi.1.enter_pending name, hi.2.enter fun s hs => nomatch hs⟩
  define hi hread _ := ⟨hi.1.enter_compiled _ (sound_toDefinition hi.1 hread),
    hi.2.enter fun _ hs => valued_toDefinition hi.1 hi.2 hread hs⟩
  defineFailed hi _ _ := ⟨hi.1.enter_pending _, hi.2.enter fun s hs => nomatch hs⟩

/-- No word of a session takes or leaves the lack of a value. -/
theorem Reachable.valued {target : T.State} {s : Session T} (h : Reachable target s) :
    s.dictionary.Valued :=
  (h.holds lasting_valued ⟨Dictionary.sound_withBuiltins, Dictionary.valued_withBuiltins⟩).2

end Session
end StackEffect
