import StackEffect.Proofs.Session.Effect
import StackEffect.Proofs.Session.Immediate

/-!
From tokens to bodies. Where each token does when it is executed what it does in a body (`Follows`),
the tokens of a body leave on the runtime stack what the nodes of its graph leave, print the same text
and fail in the same way (`Follows.executeTokens`).
-/
namespace StackEffect.Session
variable {T : Target}

/-- A literal or an operation does when it is executed what it does in a body. It changes nothing but
the stack, and nothing at all when it fails. -/
theorem executeToken_of_elementary {s : Session T} {calls : Calls} {t : Token}
    {types : List ValueType} {run : List Value → Action String (List Value)}
    {values rest : List Value} (ht : Elementary s.dictionary t)
    (hdoes : Does s.dictionary calls t types run) (hs : s.stack = values ++ rest)
    (hfits : Fits types values) (position : Nat) (out : String) :
    match run values out with
    | .ok results out' => out' = out ∧
        executeToken t position s = .ok () { s with stack := results.reverse ++ rest }
    | .error e out' => out' = out ∧ executeToken t position s = .error e s := by
  cases hdoes with
  | @literal value hn hv =>
    obtain rfl : values = [] := List.eq_nil_of_length_eq_zero hfits.length_eq.symm
    refine ⟨rfl, ?_⟩
    rw [executeToken_of_literal hn hv, hs]
    rfl
  | @primitive id w p hn hk =>
    rw [executeToken_of_primitive hn hk, executePrimitive_eq hs hfits]
    cases he : p.eval values.reverse with
    | error e => simp only [he, Action.ofExcept_error, and_self]
    | ok results => simp only [he, Action.ofExcept_ok, and_self]
  | @call id w signature hn hu =>
    obtain ⟨p, hp⟩ := ht.exists_primitive hn
    simp [Word.isUser, hp] at hu
  | @splice id w f signature hn hk =>
    obtain ⟨p, hp⟩ := ht.exists_primitive hn
    cases hk.symm.trans hp

/-- Executing a token of the kind `P` in a session of the kind `Inv` does to the stack, and to the
text that has been printed, what the token does in a body. Failures that are not `allowed` are left
out. -/
structure Follows (dictionary : Dictionary) (calls : Calls) (P : Token → Prop)
    (Inv : Session T → Prop) (printed : Session T → String) (allowed : CompileError → Prop) :
    Prop where
  step : ∀ {s : Session T} {t types run values rest}, P t → Inv s →
    Does dictionary calls t types run → s.stack = values ++ rest → Fits types values →
    ∀ position, match run values (printed s) with
      | .ok results out => ∃ s', executeToken t position s = .ok () s' ∧ Inv s' ∧
          s'.stack = results.reverse ++ rest ∧ printed s' = out
      | .error e out => allowed e →
          ∃ s', executeToken t position s = .error e s' ∧ printed s' = out

/-- The tokens that are left to be read do when they are executed what the nodes do that they will
have added to the draft. -/
theorem Follows.executeTokens {dictionary : Dictionary} {calls : Calls} {P : Token → Prop}
    {Inv : Session T → Prop} {printed : Session T → String} {allowed : CompileError → Prop}
    (h : Follows dictionary calls P Inv printed allowed) (hdict : dictionary.Sound)
    (hcounted : calls.Counted) (hcalls : calls.Sound dictionary.vocabulary) {tokens : List Token}
    (htokens : ∀ t ∈ tokens, P t) {place : Nat} {s : Session T} (hs : Inv s) {d final : Draft}
    {u : Unit} (hd : d.Sound dictionary.vocabulary)
    (hread : readTokens dictionary (tokens.zipIdx place) d = .ok u final) {stack : List Value}
    {before : String} {v : Valuation}
    (htracks : d.Tracks calls stack before v s.stack (printed s))
    (hadmits : final.graph.Admits stack) (hsize : final.arguments.size ≤ stack.length)
    (start : Nat) :
    match final.graph.evaluate calls stack before with
    | .ok v' out => ∃ s', Session.executeTokens tokens start s = .ok () s' ∧
        final.Tracks calls stack before v' s'.stack (printed s') ∧ printed s' = out
    | .error e out => allowed e →
        ∃ s', Session.executeTokens tokens start s = .error e s' ∧ printed s' = out := by
  obtain ⟨hfinal, -⟩ := sound_readTokens hdict hd hread
  induction tokens generalizing s d v place start with
  | nil =>
    cases hread
    rw [htracks.evaluated]
    exact ⟨s, rfl, htracks, rfl⟩
  | cons t tokens ih =>
    rw [List.zipIdx_cons] at hread
    obtain ⟨_, d₂, hread₂, hrest⟩ := Action.bind_eq_ok.mp hread
    obtain ⟨sound₂, -⟩ := sound_readToken hdict hd hread₂
    obtain ⟨-, grows₂⟩ := sound_readTokens hdict sound₂ hrest
    obtain ⟨types, run, word, os, d₁, hdoes, hpop, hperforms⟩ :=
      does_of_readToken hdict hcounted hd hread₂
    obtain ⟨sound₁, -, accepts⟩ := hd.popAll hpop
    have hsize₁ : d₁.arguments.size ≤ stack.length := by
      rw [← hperforms.arguments]
      exact Nat.le_trans grows₂.size_le hsize
    obtain ⟨values, rest, hstack, hl⟩ := htracks.exists_append hpop hsize₁
    rw [hstack] at htracks
    obtain ⟨v₁, htracks₁, hreads, -⟩ := htracks.popAll hl hpop
    -- The values have the types in the final graph, which are those that the token asks for.
    have grows₁ := hperforms.grows.graph.trans grows₂.graph
    obtain ⟨after, hafter⟩ := grows₁.exists_append
    obtain ⟨-, -, htyped⟩ := (typed_evaluate hfinal.graph hcounted hcalls hadmits hafter).ok
      htracks₁.evaluated
    have hfits := Table.Typed.fits htyped (Graph.accepts_all_grow accepts grows₁) hreads
    have hpushes := hperforms.pushes htracks₁ hreads
    have hexecute := h.step (htokens t List.mem_cons_self) hs hdoes hstack hfits start
    rw [executeTokens_cons]
    cases hrun : run values (printed s) with
    | error e out =>
      simp only [hrun] at hpushes hexecute
      rw [grows₂.graph.evaluate_error hpushes]
      intro he
      obtain ⟨s', hs', hout⟩ := hexecute he
      exact ⟨s', Action.bind_of_error hs' _, hout⟩
    | ok results out =>
      simp only [hrun] at hpushes hexecute
      obtain ⟨v₂, htracks₂⟩ := hpushes
      obtain ⟨s', hs', hinv, hstack', hout⟩ := hexecute
      rw [← hstack', ← hout] at htracks₂
      rw [Action.bind_of_ok hs']
      exact ih (fun t' ht' => htokens t' (List.mem_cons_of_mem t ht')) hinv sound₂ hrest htracks₂
        (start + 1)

end StackEffect.Session
