import Mathlib.Data.Finset.Card
import Mathlib.Logic.Relation
import StackEffect.Proofs.Graph.Origin

/-!
Graphs without circles, in which nodes may take outputs of later nodes. A node depends on fewer nodes
than the graph has, and on more than any node that it takes an output of (`height_lt_of_feeds`), so that
chains of inputs are no longer than the graph.
-/
namespace StackEffect.Graph
open Relation

/-- Node `id` takes an output of node `source`. -/
def Feeds (g : Graph) (source id : NodeId) : Prop :=
  ∃ n, g.node? id = some n ∧ ∃ o ∈ n.inputs, o.node = source

/-- No node depends on itself. -/
def Acyclic (g : Graph) : Prop := ∀ id, ¬ TransGen g.Feeds id id

/-- All inputs are outputs of nodes that are there, wherever these stand. -/
def Closed (g : Graph) : Prop := ∀ id n o, g.node? id = some n → o ∈ n.inputs → g.Produces o

variable {g : Graph} {a b id : NodeId}

theorem feeds_of_mem {n : Node} {o : Output} (hn : g.node? id = some n) (ho : o ∈ n.inputs) :
    g.Feeds o.node id := ⟨n, hn, o, ho, rfl⟩

instance (g : Graph) : Decidable g.Closed :=
  decidable_of_iff (∀ id < g.size, ∀ n ∈ g.node? id, ∀ o ∈ n.inputs, g.Produces o)
    ⟨fun h id n o hn ho => h id (lt_size_of_node? hn) n hn o ho,
      fun h id _ n hn o ho => h id n o hn ho⟩

/-- A graph has no circle if its nodes can be numbered so that inputs have lower numbers. -/
theorem acyclic_of_rank (rank : NodeId → Nat)
    (h : ∀ id < g.size, ∀ n ∈ g.node? id, ∀ o ∈ n.inputs, rank o.node < rank id) : g.Acyclic := by
  have hstep : ∀ a b, g.Feeds a b → rank a < rank b := by
    rintro a b ⟨n, hn, o, ho, rfl⟩
    exact h b (lt_size_of_node? hn) n hn o ho
  have hrank : ∀ {a b}, TransGen g.Feeds a b → rank a < rank b := by
    intro a b hab
    induction hab with
    | single h => exact hstep _ _ h
    | tail _ h ih => exact Nat.lt_trans ih (hstep _ _ h)
  exact fun id hid => Nat.lt_irrefl _ (hrank hid)

theorem Ordered.acyclic (hg : g.Ordered) : g.Acyclic :=
  acyclic_of_rank id fun _ _ _ hn _ ho => hg.earlier hn ho

open Classical in
noncomputable def below (g : Graph) (id : NodeId) : Finset NodeId :=
  (Finset.range g.size).filter fun a => TransGen g.Feeds a id

theorem mem_below : a ∈ g.below id ↔ a < g.size ∧ TransGen g.Feeds a id := by
  simp [below]

noncomputable def height (g : Graph) (id : NodeId) : Nat := (g.below id).card

theorem height_lt_size (hg : g.Acyclic) (hid : id < g.size) : g.height id < g.size := by
  have hsubset : g.below id ⊆ (Finset.range g.size).erase id := by
    intro a ha
    obtain ⟨hlt, hdepends⟩ := mem_below.mp ha
    refine Finset.mem_erase.mpr ⟨?_, Finset.mem_range.mpr hlt⟩
    rintro rfl
    exact hg a hdepends
  have hcard := Finset.card_le_card hsubset
  rw [Finset.card_erase_of_mem (Finset.mem_range.mpr hid), Finset.card_range] at hcard
  exact Nat.lt_of_le_of_lt hcard (Nat.sub_one_lt_of_lt hid)

theorem height_lt_of_feeds (hg : g.Acyclic) (hc : g.Closed) (h : g.Feeds a b) :
    g.height a < g.height b := by
  obtain ⟨n, hn, o, ho, rfl⟩ := h
  have hfeeds := feeds_of_mem hn ho
  refine Finset.card_lt_card (Finset.ssubset_iff_subset_ne.mpr ⟨fun c hcmem => ?_, fun heq => ?_⟩)
  · obtain ⟨hlt, hdepends⟩ := mem_below.mp hcmem
    exact mem_below.mpr ⟨hlt, hdepends.tail hfeeds⟩
  · have hmem : o.node ∈ g.below b := mem_below.mpr ⟨(hc b n o hn ho).lt_size, .single hfeeds⟩
    exact hg o.node (mem_below.mp (heq ▸ hmem)).2

end StackEffect.Graph
