import CodeSurvey.Proofs.Graph.SearchMoves

/-
Every cycle that a search reports is one, however large the graph, and no two of them meet.  A cycle
is cut out of the path, and the path holds only nodes that were entered since the root was.  Earlier
cycles lie among the nodes that were visited before, so that they cannot meet it; and the search
from one root records no second cycle.
-/

namespace CodeSurvey
namespace Graph

namespace Adjacency

theorem IsCycle.length_ge_two {graph : Adjacency} {nodes : List String} (h : graph.IsCycle nodes) :
    2 ≤ nodes.length := by
  obtain ⟨a, ha, b, hb, hne⟩ := h.distinct
  match nodes, ha, hb with
  | [only], ha, hb =>
      rw [List.mem_singleton] at ha hb
      exact absurd (ha.trans hb.symm) hne
  | _ :: _ :: _, _, _ => exact Nat.le_add_left 2 _

end Adjacency

namespace Search

open Adjacency

variable {graph : Adjacency} {root node : String} {before search after : Search}

theorem mem_path_of_mem_closedCycle {path : List String} {target : String} (htarget : target ∈ path)
    (h : node ∈ closedCycle path target) : node ∈ path := by
  rw [closedCycle_eq] at h
  rcases List.mem_append.mp h with h | h
  · exact mem_path_of_mem_circle htarget h
  · exact mem_path_of_mem_circle htarget (List.mem_of_mem_take h)

/-- The recorded cycles do not meet, and their nodes were visited. -/
structure Apart (search : Search) : Prop where
  disjoint : search.cycles.Pairwise List.Disjoint
  visited : ∀ cycle ∈ search.cycles, ∀ node ∈ cycle, node ∈ search.visited

/-- What keeps the next cycle of a root apart from those that were recorded before
the root was entered. -/
structure ApartSince (before search : Search) : Prop extends Apart search where
  kept : ∀ node ∈ before.visited, node ∈ search.visited
  fresh : ∀ node ∈ search.path, node ∉ before.visited
  cycles : search.rootHasCycle = false → search.cycles = before.cycles

theorem ApartSince.enter (h : ApartSince before search) (hnew : node ∉ search.visited) :
    ApartSince before (search.enter node) := by
  refine ⟨⟨h.disjoint, ?_⟩, ?_, ?_, h.cycles⟩
  · intro cycle hcycle other hother
    exact mem_visited_enter.mpr (.inr (h.visited cycle hcycle other hother))
  · intro other hother
    exact mem_visited_enter.mpr (.inr (h.kept other hother))
  · intro other hother hbefore
    rcases List.mem_cons.mp hother with rfl | hother
    · exact hnew (h.kept other hbefore)
    · exact h.fresh other hother hbefore

theorem ApartSince.record {target : String} (hbefore : Apart before) (h : ApartSince before search)
    (hconsistent : Consistent graph search) (htarget : target ∈ search.path) :
    ApartSince before (search.record target) := by
  cases hcycle : search.rootHasCycle with
  | true =>
      rw [record_eq_self hcycle]
      exact h
  | false =>
      have hnodes : ∀ node ∈ closedCycle search.path target, node ∈ search.path :=
        fun node => mem_path_of_mem_closedCycle htarget
      rw [record_eq hcycle]
      refine ⟨⟨?_, ?_⟩, h.kept, h.fresh, by simp⟩
      · rw [List.pairwise_append]
        refine ⟨h.disjoint, List.pairwise_singleton _ _, ?_⟩
        intro old hold new hnew node hnode hmeets
        rw [List.mem_singleton] at hnew
        subst hnew
        rw [h.cycles hcycle] at hold
        exact h.fresh node (hnodes node hmeets) (hbefore.visited old hold node hnode)
      · intro cycle hmem node hnode
        rcases List.mem_append.mp hmem with hmem | hmem
        · exact h.visited cycle hmem node hnode
        · rw [List.mem_singleton] at hmem
          subst hmem
          exact hconsistent.visited node (hnodes node hnode)

theorem ApartSince.leave (h : ApartSince before search) :
    ApartSince before (search.leave node) := by
  refine ⟨⟨h.disjoint, h.visited⟩, h.kept, ?_, h.cycles⟩
  intro other hother
  exact h.fresh other (List.mem_of_mem_drop hother)

theorem ApartSince.moves (hbefore : Apart before) (h : ApartSince before search)
    (hconsistent : Consistent graph search) (hmoves : Moves graph root search after) :
    ApartSince before after := by
  induction hmoves with
  | refl => exact h
  | tail hmoves hmove ih =>
      cases hmove with
      | enter hnew => exact ih.enter hnew
      | record _ _ _ hpath => exact ih.record hbefore (hconsistent.moves hmoves) hpath
      | leave => exact ih.leave

/-- A root is either passed over, or a call is made for it with nothing on the path. -/
theorem visits_visitRoot (h : Consistent graph search) (hpath : search.path = [])
    (hroot : root ∈ graph.keys) :
    visitRoot graph search root = search ∨
      Visits graph root root { search with rootHasCycle := false }
        (visitRoot graph search root) := by
  unfold visitRoot
  split
  · exact .inl rfl
  · next hopen =>
      rw [Bool.or_eq_true, not_or] at hopen
      have hconsistent : Consistent graph { search with rootHasCycle := false } := { h with }
      exact .inr (visits_visit ⟨hconsistent, by simp [hpath], hopen.1, mem_nodes_of_mem_keys hroot,
        by simp [hpath], fun _ => rfl⟩)

/-- What holds between the searches from two roots, whatever the size of the graph. -/
structure Rested (graph : Adjacency) (search : Search) : Prop extends Apart search where
  consistent : Consistent graph search
  path : search.path = []

theorem rested_start : Rested graph start :=
  ⟨⟨.nil, by simp [start]⟩, consistent_start, rfl⟩

theorem Rested.visitRoot (h : Rested graph search) (hroot : root ∈ graph.keys) :
    Rested graph (visitRoot graph search root) := by
  rcases visits_visitRoot h.consistent h.path hroot with hsame | hvisits
  · rw [hsame]
    exact h
  · have hconsistent : Consistent graph { search with rootHasCycle := false } :=
      { h.consistent with }
    have hbefore : Apart { search with rootHasCycle := false } := ⟨h.disjoint, h.visited⟩
    have hsince : ApartSince { search with rootHasCycle := false }
        { search with rootHasCycle := false } :=
      ⟨hbefore, fun _ hnode => hnode, by simp [h.path], fun _ => rfl⟩
    have hapart := hsince.moves hbefore hconsistent hvisits.moves
    exact ⟨hapart.toApart, hconsistent.moves hvisits.moves, hvisits.path.trans h.path⟩

theorem Rested.visitRoots (roots : List String) (hroots : ∀ root ∈ roots, root ∈ graph.keys)
    (h : Rested graph search) : Rested graph (roots.foldl (Search.visitRoot graph) search) := by
  induction roots generalizing search with
  | nil => exact h
  | cons root roots ih =>
      exact ih (fun other hother => hroots other (List.mem_cons_of_mem root hother))
        (h.visitRoot (hroots root List.mem_cons_self))

end Search

namespace Adjacency

/-- Each report goes from a node along edges through at least one other node back to the first,
meets none of its nodes twice on the way, and has no node in common with another report.  Neither
bound of the search matters. -/
theorem cycles_real (graph : Adjacency) :
    (∀ cycle ∈ graph.cycles, ∃ first rest, cycle = first :: rest ++ [first] ∧
      2 ≤ (first :: rest).length ∧ (first :: rest).Nodup ∧ cycle.IsChain graph.Edge) ∧
    graph.cycles.Pairwise List.Disjoint := by
  have hrested : Search.Rested graph (graph.keys.foldl (Search.visitRoot graph) Search.start) :=
    Search.rested_start.visitRoots graph.keys fun root hroot => hroot
  refine ⟨?_, hrested.disjoint⟩
  intro cycle hmem
  obtain ⟨nodes, hcycle, rfl⟩ := hrested.consistent.cycles cycle hmem
  obtain ⟨first, hfirst, _⟩ := hcycle.distinct
  obtain ⟨first, rest, rfl⟩ := List.exists_cons_of_ne_nil (List.ne_nil_of_mem hfirst)
  exact ⟨first, rest, rfl, hcycle.length_ge_two, hcycle.nodup, hcycle.chain⟩

-- The edge from `c` to the first circle closes no cycle, since that circle was left before.
example :
    cycles (.ofList [("a", ["a", "b"]), ("b", ["a", "a"]), ("c", ["b", "d"]), ("d", ["x", "c"])]) =
    [["a", "b", "a"], ["c", "d", "c"]] := by decide

end Adjacency
end Graph
end CodeSurvey
