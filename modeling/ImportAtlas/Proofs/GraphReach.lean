import ImportAtlas.Graph.Cycle
import ImportAtlas.Proofs.GraphLinks
import Mathlib.Logic.Relation

/-!
# Reachability in an import graph

The search for the nodes that a node reaches keeps a list of pending nodes.
Every edge is pushed at most once, when its source is seen for the first time,
so the bound on the steps is never met before nothing is pending.  What is seen
then is closed under edges.
-/

namespace ImportAtlas.ImportGraph

open Relation

def Step (graph : ImportGraph) (source target : Nat) : Prop :=
  target ∈ graph.successors source

/-- The edges that the search has not pushed yet. -/
def unpushed (graph : ImportGraph) (seen : List Nat) : List ImportEdge :=
  graph.edges.filter fun edge => !seen.contains edge.source

variable {graph : ImportGraph} {index node : Nat} {pending seen : List Nat}

theorem step_iff {source target : Nat} :
    graph.Step source target ↔
      ∃ edge ∈ graph.edges, edge.source = source ∧ edge.target = target := by
  simp [Step, successors, and_assoc]

/-! ## The search -/

private theorem length_unpushed_cons (graph : ImportGraph) (h : index ∉ seen) :
    (graph.unpushed (index :: seen)).length + (graph.successors index).length =
      (graph.unpushed seen).length := by
  simp only [unpushed, successors, List.length_map,
    ← List.countP_eq_length_filter]
  induction graph.edges with
  | nil => rfl
  | cons edge edges ih =>
      simp only [List.countP_cons]
      by_cases hsource : edge.source = index
      · subst hsource
        simp [h] at ih ⊢
        omega
      · have hother : index ≠ edge.source := fun heq => hsource heq.symm
        by_cases hseen : edge.source ∈ seen <;>
          simp [hsource, hseen] at ih ⊢ <;> omega

structure Searched (graph : ImportGraph) (index : Nat)
    (pending seen : List Nat) : Prop where
  sound : ∀ node, node ∈ pending ∨ node ∈ seen → TransGen graph.Step index node
  first : ∀ next, graph.Step index next → next ∈ pending ∨ next ∈ seen
  closed : ∀ node ∈ seen, ∀ next, graph.Step node next →
    next ∈ pending ∨ next ∈ seen

private theorem searched_start (graph : ImportGraph) (index : Nat) :
    graph.Searched index (graph.successors index) [] where
  sound node h := .single (h.resolve_right (by simp))
  first next h := .inl h
  closed node h := by simp at h

namespace Searched

theorem skip (h : graph.Searched index (node :: pending) seen)
    (hseen : node ∈ seen) :
    graph.Searched index pending seen := by
  have hkeep : ∀ next, next ∈ node :: pending ∨ next ∈ seen →
      next ∈ pending ∨ next ∈ seen := by
    rintro next (hnext | hnext)
    · rcases List.mem_cons.1 hnext with rfl | hnext
      · exact .inr hseen
      · exact .inl hnext
    · exact .inr hnext
  exact ⟨fun next hnext =>
    h.sound next (hnext.imp (List.mem_cons_of_mem node) id),
    fun next hnext => hkeep next (h.first next hnext),
    fun other hother next hnext =>
      hkeep next (h.closed other hother next hnext)⟩

theorem follow (h : graph.Searched index (node :: pending) seen) :
    graph.Searched index (graph.successors node ++ pending) (node :: seen) := by
  have hnode := h.sound node (.inl List.mem_cons_self)
  have hkeep : ∀ next, next ∈ node :: pending ∨ next ∈ seen →
      next ∈ graph.successors node ++ pending ∨ next ∈ node :: seen := by
    simp only [List.mem_cons, List.mem_append]
    tauto
  constructor
  · rintro next (hnext | hnext)
    · rcases List.mem_append.1 hnext with hnext | hnext
      · exact hnode.tail hnext
      · exact h.sound next (.inl (List.mem_cons_of_mem node hnext))
    · rcases List.mem_cons.1 hnext with rfl | hnext
      · exact hnode
      · exact h.sound next (.inr hnext)
  · exact fun next hnext => hkeep next (h.first next hnext)
  · intro other hother next hnext
    rcases List.mem_cons.1 hother with rfl | hother
    · exact .inl (List.mem_append_left pending hnext)
    · exact hkeep next (h.closed other hother next hnext)

theorem reachFrom {steps : Nat} (h : graph.Searched index pending seen)
    (hsteps : pending.length + (graph.unpushed seen).length < steps) :
    graph.Searched index [] (graph.reachFrom steps pending seen) := by
  fun_induction ImportGraph.reachFrom graph steps pending seen with
  | case1 => omega
  | case2 => exact h
  | case3 steps node pending seen hseen ih =>
      refine ih (h.skip (by simpa using hseen)) ?_
      rw [List.length_cons] at hsteps
      omega
  | case4 steps node pending seen hseen ih =>
      refine ih h.follow ?_
      have hpushed :=
        length_unpushed_cons graph (by simpa using hseen : node ∉ seen)
      rw [List.length_cons] at hsteps
      rw [List.length_append]
      omega

private theorem mem_of_transGen (h : graph.Searched index [] seen)
    (hreach : TransGen graph.Step index node) : node ∈ seen := by
  induction hreach with
  | single hstep => exact (h.first _ hstep).resolve_left (by simp)
  | tail _ hstep ih => exact (h.closed _ ih _ hstep).resolve_left (by simp)

end Searched

theorem mem_reached :
    node ∈ graph.reached index ↔ TransGen graph.Step index node := by
  have hsearched : graph.Searched index [] (graph.reached index) := by
    refine (searched_start graph index).reachFrom ?_
    have hall : graph.unpushed [] = graph.edges := by simp [unpushed]
    rw [hall]
    omega
  exact ⟨fun h => hsearched.sound node (.inr h), hsearched.mem_of_transGen⟩

/-! ## Numbers and keys -/

theorem WellFormed.step_iff_links (h : graph.WellFormed) {source target : Nat}
    {key other : NodeKey} (hsource : graph.keys[source]? = some key)
    (htarget : graph.keys[target]? = some other) :
    graph.Step source target ↔ graph.Links key other := by
  rw [step_iff]
  constructor
  · rintro ⟨edge, hedge, rfl, rfl⟩
    exact ⟨edge, hedge, hsource, htarget⟩
  · rintro ⟨edge, hedge, hkey, hother⟩
    exact ⟨edge, hedge, h.index_unique hkey hsource,
      h.index_unique hother htarget⟩

theorem WellFormed.transGen_step_iff (h : graph.WellFormed)
    {source target : Nat} {key other : NodeKey}
    (hsource : graph.keys[source]? = some key)
    (htarget : graph.keys[target]? = some other) :
    TransGen graph.Step source target ↔ TransGen graph.Links key other := by
  constructor
  · intro hreach
    induction hreach generalizing other with
    | single hstep => exact .single ((h.step_iff_links hsource htarget).1 hstep)
    | tail _ hstep ih =>
        obtain ⟨edge, hedge, rfl, rfl⟩ := step_iff.1 hstep
        have hmiddle := List.getElem?_eq_getElem (h.edges edge hedge).1
        exact (ih hmiddle).tail ⟨edge, hedge, hmiddle, htarget⟩
  · intro hreach
    induction hreach generalizing target with
    | single hlink => exact .single ((h.step_iff_links hsource htarget).2 hlink)
    | tail _ hlink ih =>
        obtain ⟨edge, hedge, hmiddle, hother⟩ := hlink
        obtain rfl := h.index_unique hother htarget
        exact (ih hmiddle).tail (step_iff.2 ⟨edge, hedge, rfl, rfl⟩)

end ImportAtlas.ImportGraph
