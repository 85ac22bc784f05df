import Mathlib.Data.List.Perm.Subperm
import StackEffect.Proofs.Machine.Layering
import StackEffect.Proofs.Session.Calling
import StackEffect.Proofs.Session.History

/-!
There is no recursion (`no_recursion`). A definition calls words that were there before its `:`, so
that calls go down through layers of words and nest no deeper than there are words. Where calls nest
too deeply, a chain of as many different words is to blame (`Layered.exists_chain`).
-/
namespace StackEffect
namespace Machine
variable {routines : Array Routine} {id : Nat} {arguments : List Value} {out out' : String}

/-! ### The call that fails -/

theorem shallow_native (symbol : String) (arguments : List Value) :
    (native symbol arguments).Shallow := by
  rcases native_cases symbol arguments with ⟨e, -, he, h⟩ | ⟨-, text, h⟩ | ⟨-, n, h⟩
  · rw [h]
    exact .throw he
  · rw [h]
    exact fun _ _ => trivial
  · rw [h]
    exact .pure _

theorem read_ne_callDepth {rs : RegisterFile} {r : Register} {e : CompileError}
    (h : rs.read r = .error e) : e ≠ .runtime .callDepth := by
  unfold RegisterFile.read at h
  split at h <;> cases h
  simp

theorem shallow_readAll (rs : RegisterFile) (registers : List Register) :
    (Action.ofExcept (registers.mapM rs.read) : Action String (List Value)).Shallow := by
  refine .ofExcept fun e h => ?_
  obtain ⟨r, -, he⟩ := Except.exists_of_mapM_eq_error h
  exact read_ne_callDepth he

theorem exists_call_of_step {call : RoutineId → List Value → Action String (List Value)}
    {rs : RegisterFile} {i : Instruction}
    (h : step call arguments rs i out = .error (.runtime .callDepth) out') :
    ∃ targets k inputs values before, i = .call targets k inputs ∧
      call k values before = .error (.runtime .callDepth) out' := by
  cases i with
  | argument target index => cases h
  | constant target value => cases h
  | binary target op left right =>
    have hstep : (step call arguments rs (.binary target op left right)).Shallow :=
      .bind (.ofExcept fun _ => read_ne_callDepth) fun _ =>
        .bind (.ofExcept fun _ => read_ne_callDepth) fun _ =>
          .bind (.ofExcept fun _ => BinaryOp.apply_ne_callDepth) fun _ => .pure _
    exact absurd rfl (hstep.error trivial h).2
  | cast target c source =>
    have hstep : (step call arguments rs (.cast target c source)).Shallow :=
      .bind (.ofExcept fun _ => read_ne_callDepth) fun _ =>
        .bind (.ofExcept fun _ => Cast.apply_ne_callDepth) fun _ => .pure _
    exact absurd rfl (hstep.error trivial h).2
  | call targets k inputs =>
    rcases Action.bind_eq_error.mp h with hread | ⟨values, before, -, hrest⟩
    · exact absurd rfl ((shallow_readAll rs inputs).error trivial hread).2
    · rcases Action.bind_eq_error.mp hrest with hcall | ⟨results, after, -, hwrite⟩
      · exact ⟨targets, k, inputs, values, before, rfl, hcall⟩
      · split_ifs at hwrite <;> cases hwrite

theorem exists_call_of_callWithin {depth : Nat}
    (h : callWithin routines (depth + 1) id arguments out = .error (.runtime .callDepth) out') :
    ∃ routine b targets k inputs values before, routines[id]? = some routine ∧
      routine.body = some b ∧ .call targets k inputs ∈ b.code ∧
      callWithin routines depth k values before = .error (.runtime .callDepth) out' := by
  cases hr : routines[id]? with
  | none =>
    rw [callWithin_none hr] at h
    cases h
  | some routine =>
    cases hb : routine.body with
    | none =>
      rw [callWithin_native hr hb] at h
      exact absurd rfl ((shallow_native _ _).error trivial h).2
    | some b =>
      by_cases hl : arguments.length = routine.signature.inputArity
      · rw [callWithin_body hr hb depth hl] at h
        rcases Action.bind_eq_error.mp h with hcode | ⟨rs, after, -, hread⟩
        · obtain ⟨i, hi, rs, before, hstep⟩ := Action.exists_of_foldlM_eq_error hcode
          obtain ⟨targets, k, inputs, values, before', rfl, hcall⟩ := exists_call_of_step hstep
          exact ⟨routine, b, targets, k, inputs, values, before', rfl, hb, Array.mem_toList_iff.mp hi,
            hcall⟩
        · exact absurd rfl ((shallow_readAll rs b.outputs).error trivial hread).2
      · rw [callWithin_count hr hb depth hl] at h
        cases h

/-! ### Chains of words -/

section Layered
variable {d : Dictionary} {m : Machine} {functions : FunctionTable Machine.target}

/-- Calls that nest too deeply follow a chain of words. -/
theorem Layered.exists_chain (h : Layered d m functions) {depth : Nat} {id : WordId} {w : Word}
    {r : Nat} (hw : d.word? id = some w) (hu : w.isUser = true)
    (hr : functions[id]? = some (some r))
    (he : callWithin m.routines depth r arguments out = .error (.runtime .callDepth) out') :
    ∃ rest : List WordId, rest.length = depth ∧ (id :: rest).IsChain d.Calls := by
  induction depth generalizing id w r arguments out with
  | zero => exact ⟨[], rfl, .singleton id⟩
  | succ depth ih =>
    obtain ⟨routine, b, targets, k, inputs, values, before, hroutine, hbody, hi, hcall⟩ :=
      exists_call_of_callWithin he
    obtain ⟨r', routine', hr', hroutine', -, ⟨s, -, hnone⟩ | ⟨f, b', hk, -⟩⟩ :=
      h.exists_routine hw hu
    · cases hr.symm.trans hr'
      cases hroutine.symm.trans hroutine'
      cases hnone.symm.trans hbody
    · obtain ⟨c, hc, hcallee⟩ := h.calls hw hk hr hroutine hbody _ _ _ hi
      obtain ⟨v, hv, hvu, -⟩ := h.exists_callee hw hk hc
      obtain ⟨rest, hlength, hchain⟩ := ih hv hvu hcallee hcall
      exact ⟨c.word :: rest, by rw [List.length_cons, hlength],
        .cons_cons ⟨w, f, c, hw, hk, hc, rfl⟩ hchain⟩

theorem Layered.nodup (h : Layered d m functions) {chain : List WordId}
    (hchain : chain.IsChain d.Calls) : chain.Nodup := by
  have hdown : chain.IsChain (· > ·) := hchain.imp fun _ _ => h.older
  exact (List.isChain_iff_pairwise.mp hdown).imp Nat.ne_of_gt

theorem Layered.isUser_of_chain (h : Layered d m functions) {id : WordId} {w : Word}
    (hw : d.word? id = some w) (hu : w.isUser = true) {rest : List WordId}
    (hchain : (id :: rest).IsChain d.Calls) :
    ∀ i ∈ id :: rest, ∃ v, d.word? i = some v ∧ v.isUser = true := by
  induction rest generalizing id w with
  | nil =>
    intro i hi
    rw [List.mem_singleton.mp hi]
    exact ⟨w, hw, hu⟩
  | cons id' rest ih =>
    obtain ⟨⟨w', f, c, hw', hk, hc, rfl⟩, hrest⟩ := List.isChain_cons_cons.mp hchain
    obtain ⟨v, hv, hvu, -⟩ := h.exists_callee hw' hk hc
    intro i hi
    rcases List.mem_cons.mp hi with rfl | hi
    · exact ⟨w, hw, hu⟩
    · exact ih hv hvu hrest i hi

/-- Calls nest no deeper than there are words. -/
theorem Layered.callDepth_le (h : Layered d m functions)
    (hvisible : ∀ {id w}, d.word? id = some w → w.isUser = true → w.isHidden = false)
    {depth : Nat} {id : WordId} {w : Word} {r : Nat} (hw : d.word? id = some w)
    (hu : w.isUser = true) (hr : functions[id]? = some (some r))
    (he : callWithin m.routines depth r arguments out = .error (.runtime .callDepth) out') :
    depth < d.entered.length := by
  obtain ⟨rest, rfl, hchain⟩ := h.exists_chain hw hu hr he
  have hentered : id :: rest ⊆ d.entered.map Prod.fst := by
    intro i hi
    obtain ⟨v, hv, hvu⟩ := h.isUser_of_chain hw hu hchain i hi
    exact List.mem_map.mpr ⟨(i, v), Dictionary.mem_entered.mpr ⟨hv, hvisible hv hvu, hvu⟩, rfl⟩
  have hlength := (List.subperm_of_subset (h.nodup hchain) hentered).length_le
  rwa [List.length_cons, List.length_map] at hlength

end Layered
end Machine

namespace Session

/-- How the definition of a word has been read: when the words of `known` were there. The word itself
stood behind them and was pending, so that each token meant what it had meant before. What the
definition calls was there, and could be seen. -/
structure ReadBehind (known : Dictionary) (w : Word) (f : Definition) : Prop where
  resolves : ∀ t, named (known.enter (.pending w.name)) t = named known t
  read : ∃ body draft, readBody (known.enter (.pending w.name)) body {} = .ok () draft ∧
    f = draft.toDefinition w.name body
  calls : ∀ c, f.Calls c → c.word < known.size ∧
    ∃ v, known.word? c.word = some v ∧ v.isHidden = false ∧ v.name = c.name

theorem Orderly.visible {T : Target} {d : Dictionary} {functions : FunctionTable T}
    {entries : List Entry} (h : Orderly d functions entries) {id : WordId} {w : Word}
    (hw : d.word? id = some w) (hu : w.isUser = true) : w.isHidden = false := by
  refine Bool.eq_false_iff.mpr fun hhidden => ?_
  have hk := (h.hidden hw).mp hhidden
  simp [Word.isUser, hk] at hu

section Reachable
variable {s : Session Machine.target} (h : Reachable ({} : Machine) s)
include h

theorem Reachable.exists_known {id : WordId} {w : Word} {f : Definition}
    (hw : s.dictionary.word? id = some w) (hk : w.kind = .compiled f) :
    ∃ known : Dictionary, known.size = id ∧
      (∀ i < id, s.dictionary.word? i = known.word? i) ∧ ReadBehind known w f := by
  obtain ⟨entries, hhistory⟩ := h.exists_history
  have hsettled := hhistory.settled
  have hu : w.isUser = true := Word.isUser_iff.mpr (.inr ⟨f, hk⟩)
  have hmem : (id, w) ∈ s.dictionary.entered :=
    Dictionary.mem_entered.mpr ⟨hw, hsettled.visible hw hu, hu⟩
  obtain ⟨i, hi⟩ := List.mem_iff_getElem?.mp hmem
  obtain ⟨e, -, he⟩ := Pointwise.left_of_right hsettled.entered hi
  cases e with
  | configured c =>
    obtain ⟨s, -, rfl⟩ := he
    cases hk
  | declared name inputs outputs =>
    obtain ⟨ins, outs, -, -, rfl⟩ := he
    cases hk
  | defined known name body =>
    obtain ⟨rfl, hknown, draft, hread, heq⟩ := he
    have hname : w.name = name := congrArg Word.name heq
    obtain rfl : draft.toDefinition name body = f := by
      have hkind := congrArg Word.kind heq
      exact WordKind.compiled.inj (hkind.symm.trans hk)
    refine ⟨known, rfl, hknown, fun t => named_enter_pending known w.name t, ?_, fun c hc => ?_⟩
    · refine ⟨body, draft, ?_, by rw [hname]⟩
      rw [readBody, readTokens_enter_pending]
      exact hread
    · obtain ⟨v, hv, hvu, hvname⟩ := h.layered.exists_callee hw hk hc
      have hlt : c.word < known.size := h.layered.older ⟨w, _, c, hw, hk, hc, rfl⟩
      exact ⟨hlt, v, (hknown _ hlt).symm.trans hv, hsettled.visible hv hvu, hvname⟩

end Reachable

/-! ### Runs -/

section Runs
variable {s s' : Session Machine.target}

theorem readBody_ne_callDepth {dictionary : Dictionary} (hdict : dictionary.Sound)
    {body : List Token} {draft : Draft} {e : CompileError}
    (h : readBody dictionary body {} = .error e draft) : e ≠ .runtime .callDepth := by
  rcases readTokens_error hdict (Draft.Sound.empty _) h with
    ⟨t, -, hfault⟩ | ⟨t, -, op, -, required, -, actual, rfl⟩
  · rcases operation_error hfault with ⟨name, rfl⟩ | ⟨use, rfl⟩ | ⟨index, bound, rfl⟩ <;> simp
  · simp

theorem exists_call_of_perform (hs : Machine.Linked s.dictionary s.target s.functions)
    {position : Nat} {p : Phrase} (hfault : ∀ e, p.fault? = some e → e.IsUnreadable)
    (h : perform position p s = .error (.runtime .callDepth) s') :
    ∃ id w function arguments target, s.dictionary.word? id = some w ∧ w.isUser = true ∧
      s.functions[id]? = some (some function) ∧
      Machine.execute function arguments s.target = .error (.runtime .callDepth) target ∧
      s'.dictionary = s.dictionary := by
  cases p with
  | definition name body fault =>
    rcases define_eq_error h with ⟨draft, hread, -⟩ | ⟨draft, -, hf, -⟩ |
      ⟨draft, target, hread, -, hg, -⟩
    · exact absurd rfl (readBody_ne_callDepth hs.sound hread)
    · exact absurd (hfault _ hf) (by simp [CompileError.IsUnreadable])
    · obtain ⟨r, m', hm'⟩ := hs.exists_generate_of_read hread
      cases hm'.symm.trans hg
  | declaration name inputs outputs =>
    obtain ⟨target, -, ⟨⟨code, he⟩, -⟩ | ⟨signature, hd⟩⟩ := declare_eq_error h
    · cases he
    · cases hd
  | see name => rcases see_cases name s with hs | ⟨output, hs⟩ <;> cases hs.symm.trans h
  | token t => exact exists_call_of_executeToken h

/-- A run that fails for how deep calls nest comes to a halt where a word is called. -/
theorem exists_call_of_run (hs : Machine.Layered s.dictionary s.target s.functions) {text : String}
    (h : run text s = .error (.runtime .callDepth) s') :
    ∃ (m : Machine) (functions : FunctionTable Machine.target),
      Machine.Layered s'.dictionary m functions ∧
      ∃ id w function arguments m', s'.dictionary.word? id = some w ∧ w.isUser = true ∧
        functions[id]? = some (some function) ∧
        Machine.execute function arguments m = .error (.runtime .callDepth) m' := by
  obtain ⟨s₁, hrun, rfl⟩ := run_eq_error.mp h
  have hlayered : Holds (T := Machine.target) Machine.Layered (halt (.ofText text) s).2 :=
    holds_halt Machine.lasting_layered _ hs
  have hends := ends_halt (.ofText text) s
  rw [hrun] at hends
  generalize halt (.ofText text) s = here at hends hlayered
  obtain ⟨c, before⟩ := here
  cases hends with
  | unread hn => exact absurd (Cursor.nextPhrase_error hn) (by simp [CompileError.IsUnreadable])
  | failed hn hp =>
    obtain ⟨id, w, function, arguments, m', hw, hu, hf, hx, hd⟩ :=
      exists_call_of_perform hlayered.toLinked (fun e => Cursor.fault_of_nextPhrase hn) hp
    have hsame : s₁.reset.takeOver.dictionary = before.dictionary := hd
    rw [hsame]
    exact ⟨before.target, before.functions, hlayered, id, w, function, arguments, m', hw, hu, hf, hx⟩

end Runs

/-- There is no recursion. A definition calls words that were there, and could be seen, before its
`:`, also if its body has the name of the word or inline words in it; and its routine calls earlier
routines. So no word nests calls more deeply than there are users' words, and calls that nest too
deeply go down a chain of words, all different, of which there are more than calls may nest. -/
theorem no_recursion {s : Session Machine.target} (h : Reachable ({} : Machine) s) :
    (∀ id w f, s.dictionary.word? id = some w → w.kind = .compiled f →
      ∃ known : Dictionary, known.size = id ∧
        (∀ i < id, s.dictionary.word? i = known.word? i) ∧ ReadBehind known w f) ∧
    (∀ (n : Nat) routine b, s.target.routines[n]? = some routine → routine.body = some b →
      b.CallsBelow n) ∧
    (∀ id w r, s.dictionary.word? id = some w → w.isUser = true →
      s.functions[id]? = some (some r) → ∀ depth ≥ s.dictionary.entered.length,
      ∀ arguments out out', Machine.callWithin s.target.routines depth r arguments out ≠
        .error (.runtime .callDepth) out') ∧
    ∀ text, (Action.attempt (run text) s).1 = .error (.runtime .callDepth) →
      ∃ chain : List WordId, chain.length = Machine.maxCallDepth + 2 ∧ chain.Nodup ∧
        chain.IsChain (Action.attempt (run text) s).2.dictionary.Calls := by
  refine ⟨fun id w f => h.exists_known, fun n routine b => h.layered.below, ?_, fun text ht => ?_⟩
  · intro id w r hw hu hr depth hdepth arguments out out' he
    obtain ⟨entries, hhistory⟩ := h.exists_history
    have hlt := h.layered.callDepth_le hhistory.settled.visible hw hu hr he
    exact absurd hlt (Nat.not_lt_of_le hdepth)
  · obtain ⟨m, functions, hlayered, id, w, function, arguments, m', hw, hu, hf, hx⟩ :=
      exists_call_of_run h.layered (Action.attempt_eq_error.mp ht)
    rw [Machine.execute_apply] at hx
    cases hcall : Machine.callWithin m.routines (Machine.maxCallDepth + 1) function arguments
        m.output with
    | ok results out => simp [hcall] at hx
    | error e out =>
      simp only [hcall] at hx
      cases hx
      obtain ⟨rest, hlength, hchain⟩ := hlayered.exists_chain hw hu hf hcall
      exact ⟨id :: rest, by rw [List.length_cons, hlength], hlayered.nodup hchain, hchain⟩

def selfNaming : String :=
  "extern print-int ( i -- ) : f 1 ; : g f f * ; inline : f g dup print-int f ;"

theorem no_recursion_selfNaming :
    let s := ofText selfNaming
    s.dictionary.entered.map (fun x => (x.1, x.2.name)) =
      [(23, "print-int"), (24, "f"), (25, "g"), (26, "f")] ∧
    Machine.code? s.target 3 = some [.call [0] 1 [], .call [1] 1 [], .binary 2 .mul 0 1,
      .call [] 0 [2], .call [3] 1 []] ∧
    (∀ (n : Nat) routine b, s.target.routines[n]? = some routine → routine.body = some b →
      b.CallsBelow n) ∧
    (∃ w f, s.dictionary.word? 26 = some w ∧ w.kind = .compiled f ∧
      ∃ known : Dictionary, known.size = 26 ∧ (∀ i < 26, s.dictionary.word? i = known.word? i) ∧
        ReadBehind known w f) ∧
    ∀ depth ≥ 4, ∀ arguments out out', Machine.callWithin s.target.routines depth 3 arguments out ≠
      .error (.runtime .callDepth) out' := by
  intro s
  obtain ⟨hread, hbelow, hdepth, -⟩ := no_recursion (reachable_ofText selfNaming)
  have hruns : (s.dictionary.entered.map (fun x => (x.1, x.2.name)), Machine.code? s.target 3,
      s.dictionary.latestDefinition, s.functions[26]?) =
      ([(23, "print-int"), (24, "f"), (25, "g"), (26, "f")],
        some [.call [0] 1 [], .call [1] 1 [], .binary 2 .mul 0 1, .call [] 0 [2], .call [3] 1 []],
        some 26, some (some (3 : Nat))) := by decide +kernel
  simp only [Prod.mk.injEq] at hruns
  obtain ⟨hentered, hcode, hlatest, hfunction⟩ := hruns
  obtain ⟨w, f, hw, -, hk⟩ := Dictionary.latestDefinition_eq_some hlatest
  refine ⟨hentered, hcode, hbelow, ⟨w, f, hw, hk, hread 26 w f hw hk⟩, ?_⟩
  intro depth hge
  have hlength : s.dictionary.entered.length = 4 :=
    (List.length_map _).symm.trans (congrArg List.length hentered)
  exact hdepth 26 w 3 hw (Word.isUser_iff.mpr (.inr ⟨f, hk⟩)) hfunction depth (hlength ▸ hge)

end Session
end StackEffect
