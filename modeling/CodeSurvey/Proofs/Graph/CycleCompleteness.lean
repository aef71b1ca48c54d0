import CodeSurvey.Proofs.Graph.SearchMoves

/-
A search for cycles misses none in a graph that is no larger than a path may be, although it reports
at most one for each root.  A node that is left before its root has a cycle leads only to nodes that
were left before it, so it lies on no circuit; and whatever was visited since the root was entered
can be reached from the root.  The main statement is `Adjacency.cycles_complete`.
-/

namespace CodeSurvey
namespace Graph

namespace Adjacency

variable {graph : Adjacency} {node : String} {nodes : List String}

/-- Some other node can be reached from the node and leads back to it. -/
def OnCircuit (graph : Adjacency) (node : String) : Prop :=
  ∃ other, other ≠ node ∧ graph.Reachable node other ∧ graph.Reachable other node

theorem reachable_last_of_mem_chain {last : String} {before : List String}
    (h : (before ++ [last]).IsChain graph.Edge) (hnode : node ∈ before ++ [last]) :
    graph.Reachable node last := by
  induction before with
  | nil =>
      rw [List.mem_singleton.mp hnode]
      exact .refl
  | cons first before ih =>
      rcases List.mem_cons.mp hnode with rfl | hnode
      · exact reachable_of_mem_chain h (List.mem_append_right (node :: before) List.mem_cons_self)
      · exact ih h.tail hnode

/-- From each node of a circuit every other can be reached. -/
theorem IsCircuit.reachable (h : graph.IsCircuit nodes) {a b : String} (ha : a ∈ nodes)
    (hb : b ∈ nodes) : graph.Reachable a b := by
  obtain ⟨first, rest, rfl⟩ := List.exists_cons_of_ne_nil (List.ne_nil_of_mem ha)
  have hchain : ((first :: rest) ++ [first]).IsChain graph.Edge := h.chain
  have hto := reachable_last_of_mem_chain hchain (List.mem_append_left _ ha)
  exact hto.trans (reachable_of_mem_chain hchain (List.mem_append_left [first] hb))

theorem IsCircuit.onCircuit (h : graph.IsCircuit nodes) (hnode : node ∈ nodes) :
    graph.OnCircuit node := by
  obtain ⟨a, ha, b, hb, hne⟩ := h.distinct
  by_cases hother : a = node
  · exact ⟨b, fun heq => hne (hother.trans heq.symm), h.reachable hnode hb, h.reachable hb hnode⟩
  · exact ⟨a, hother, h.reachable hnode ha, h.reachable ha hnode⟩

/-- A node that leads, but for itself, only into a closed set that it is not in
lies on no circuit. -/
theorem not_onCircuit_of_closed {closed : String → Prop}
    (hclosed : ∀ a b, closed a → graph.Edge a b → closed b) (hnode : ¬ closed node)
    (htargets : ∀ target, graph.Edge node target → target ≠ node → closed target) :
    ¬ graph.OnCircuit node := by
  have hstays : ∀ a b, closed a → graph.Reachable a b → closed b := by
    intro a b ha hreach
    induction hreach with
    | refl => exact ha
    | tail _ hedge ih => exact hclosed _ _ ih hedge
  have hleads : ∀ b, graph.Reachable node b → b = node ∨ closed b := by
    intro b hreach
    induction hreach with
    | refl => exact .inl rfl
    | @tail a b _ hedge ih =>
        rcases ih with rfl | ha
        · by_cases hb : b = a
          · exact .inl hb
          · exact .inr (htargets b hedge hb)
        · exact .inr (hclosed a b ha hedge)
  rintro ⟨other, hne, hto, hback⟩
  rcases hleads other hto with heq | hother
  · exact hne heq
  · exact hnode (hstays other node hother hback)

end Adjacency

namespace Search

open Adjacency

variable {graph : Adjacency} {root node : String} {before search after : Search}

/-- The nodes that were entered and left again. -/
def Left (search : Search) (node : String) : Prop := node ∈ search.visited ∧ node ∉ search.path

/-- What the search from a root knows, in a graph that no bound cuts short.  `before` is the search
when the root was entered. -/
structure Explored (graph : Adjacency) (root : String) (before search : Search) : Prop where
  reachable : ∀ node ∈ search.visited, node ∈ before.visited ∨ graph.Reachable root node
  path : ∀ node ∈ search.path, graph.Reachable root node
  targets : ∀ node target, search.Left node → graph.Edge node target → target ∈ search.visited
  recorded : search.rootHasCycle = true →
    ∃ cycle ∈ search.cycles, ∀ node ∈ cycle, graph.Reachable root node
  closed : search.rootHasCycle = false →
    ∀ node target, search.Left node → graph.Edge node target → search.Left target
  acyclic : search.rootHasCycle = false →
    ∀ node, search.Left node → node ∈ before.visited ∨ ¬ graph.OnCircuit node

theorem left_enter (hnew : node ∉ search.visited) (other : String) :
    (search.enter node).Left other ↔ search.Left other := by
  rw [Left, mem_visited_enter]
  constructor
  · rintro ⟨hvisited, hpath⟩
    rcases hvisited with rfl | hvisited
    · exact absurd List.mem_cons_self hpath
    · exact ⟨hvisited, fun h => hpath (List.mem_cons_of_mem node h)⟩
  · rintro ⟨hvisited, hpath⟩
    refine ⟨.inr hvisited, fun h => ?_⟩
    rcases List.mem_cons.mp h with rfl | h
    · exact hnew hvisited
    · exact hpath h

theorem left_leave (h : Consistent graph search) (hlast : search.path.head? = some node)
    (other : String) : (search.leave node).Left other ↔ other = node ∨ search.Left other := by
  obtain ⟨rest, hrest⟩ := List.head?_eq_some_iff.mp hlast
  have hnodup := h.nodup
  have hvisited := h.visited node (hrest ▸ List.mem_cons_self)
  rw [hrest] at hnodup
  rw [Left, Left, path_leave hrest, hrest, List.mem_cons]
  constructor
  · rintro ⟨hother, hnotin⟩
    by_cases heq : other = node
    · exact .inl heq
    · exact .inr ⟨hother, fun h => h.elim heq hnotin⟩
  · rintro (rfl | ⟨hother, hnotin⟩)
    · exact ⟨hvisited, (List.nodup_cons.mp hnodup).1⟩
    · exact ⟨hother, fun h => hnotin (.inr h)⟩

theorem Explored.enter (h : Explored graph root before search) (hnew : node ∉ search.visited)
    (hfrom : ∀ last ∈ search.path.head?, graph.Edge last node)
    (hroot : search.path = [] → node = root) : Explored graph root before (search.enter node) := by
  have hnode : graph.Reachable root node := by
    cases hpath : search.path with
    | nil =>
        rw [hroot hpath]
        exact .refl
    | cons last rest =>
        have hlast := h.path last (hpath ▸ List.mem_cons_self)
        exact hlast.tail (hfrom last (by rw [hpath, List.head?_cons]; rfl))
  refine ⟨?_, ?_, ?_, h.recorded, ?_, ?_⟩
  · intro other hother
    rcases mem_visited_enter.mp hother with rfl | hother
    · exact .inr hnode
    · exact h.reachable other hother
  · exact List.forall_mem_cons.mpr ⟨hnode, h.path⟩
  · intro other target hleft hedge
    exact mem_visited_enter.mpr
      (.inr (h.targets other target ((left_enter hnew other).mp hleft) hedge))
  · intro hcycle other target hleft hedge
    exact (left_enter hnew target).mpr
      (h.closed hcycle other target ((left_enter hnew other).mp hleft) hedge)
  · intro hcycle other hleft
    exact h.acyclic hcycle other ((left_enter hnew other).mp hleft)

theorem Explored.record {target : String} (h : Explored graph root before search)
    (htarget : target ∈ search.path) : Explored graph root before (search.record target) := by
  cases hcycle : search.rootHasCycle with
  | true =>
      rw [record_eq_self hcycle]
      exact h
  | false =>
      rw [record_eq hcycle]
      refine ⟨h.reachable, h.path, h.targets, fun _ => ?_, by simp, by simp⟩
      refine ⟨_, List.mem_append_right _ List.mem_cons_self, fun node hnode => ?_⟩
      have hcircle : node ∈ circle search.path target := by
        rw [closedCycle_eq] at hnode
        rcases List.mem_append.mp hnode with hnode | hnode
        · exact hnode
        · exact List.mem_of_mem_take hnode
      exact h.path node (mem_path_of_mem_circle htarget hcircle)

theorem Explored.leave (h : Explored graph root before search)
    (hconsistent : Consistent graph search) (hlast : search.path.head? = some node)
    (hdone : ∀ target, graph.Edge node target → target ≠ node →
      target ∈ search.visited ∧ (target ∈ search.path → search.rootHasCycle = true)) :
    Explored graph root before (search.leave node) := by
  have hpath : node ∈ search.path := List.mem_of_head? hlast
  have hleft := left_leave hconsistent hlast
  -- While the root has no cycle, all that the node leads to was left.
  have htargets : search.rootHasCycle = false →
      ∀ target, graph.Edge node target → target ≠ node → search.Left target := by
    intro hcycle target hedge hne
    obtain ⟨hvisited, honPath⟩ := hdone target hedge hne
    refine ⟨hvisited, fun htarget => ?_⟩
    rw [honPath htarget] at hcycle
    contradiction
  refine ⟨h.reachable, ?_, ?_, h.recorded, ?_, ?_⟩
  · exact fun other hother => h.path other (List.mem_of_mem_drop hother)
  · intro other target hother hedge
    rcases (hleft other).mp hother with rfl | hother
    · by_cases hself : target = other
      · rw [hself]
        exact hconsistent.visited other hpath
      · exact (hdone target hedge hself).1
    · exact h.targets other target hother hedge
  · intro hcycle other target hother hedge
    rw [hleft]
    rcases (hleft other).mp hother with rfl | hother
    · by_cases hself : target = other
      · exact .inl hself
      · exact .inr (htargets hcycle target hedge hself)
    · exact .inr (h.closed hcycle other target hother hedge)
  · intro hcycle other hother
    rcases (hleft other).mp hother with rfl | hother
    · exact .inr
        (not_onCircuit_of_closed (fun a b => h.closed hcycle a b) (fun hleft => hleft.2 hpath)
        (htargets hcycle))
    · exact h.acyclic hcycle other hother

theorem Explored.moves (hsmall : graph.nodes.card ≤ maxDepth)
    (h : Explored graph root before search) (hconsistent : Consistent graph search)
    (hmoves : Moves graph root search after) : Explored graph root before after := by
  induction hmoves with
  | refl => exact h
  | tail hmoves hmove ih =>
      cases hmove with
      | enter hnew _ _ _ hfrom hroot => exact ih.enter hnew hfrom hroot
      | record _ _ _ hpath => exact ih.record hpath
      | leave hlast hdone => exact ih.leave (hconsistent.moves hmoves) hlast (hdone hsmall)

/-- Once its root is left, the search has reported for every circuit that it met. -/
theorem Explored.reported (h : Explored graph root before search) (hpath : search.path = [])
    (hnode : node ∈ search.visited) (hnew : node ∉ before.visited)
    (hcircuit : graph.OnCircuit node) :
    ∃ cycle ∈ search.cycles, graph.Reachable root node ∧
    ∀ other ∈ cycle, graph.Reachable root other := by
  have hreach := (h.reachable node hnode).resolve_left hnew
  cases hcycle : search.rootHasCycle with
  | true =>
      obtain ⟨cycle, hmem, hall⟩ := h.recorded hcycle
      exact ⟨cycle, hmem, hreach, hall⟩
  | false =>
      have hleft : search.Left node := ⟨hnode, by simp [hpath]⟩
      exact absurd hcircuit ((h.acyclic hcycle node hleft).resolve_left hnew)

/-- What holds between the searches from two roots: every circuit that was met
has a report near it. -/
structure Covered (graph : Adjacency) (search : Search) : Prop where
  consistent : Consistent graph search
  path : search.path = []
  closed : ∀ node target, node ∈ search.visited → graph.Edge node target → target ∈ search.visited
  reported : ∀ node ∈ search.visited, graph.OnCircuit node →
    ∃ root ∈ graph.keys, ∃ cycle ∈ search.cycles,
      graph.Reachable root node ∧ ∀ other ∈ cycle, graph.Reachable root other

theorem covered_start : Covered graph start :=
  ⟨consistent_start, rfl, by simp [start], by simp [start]⟩

theorem Covered.explored (h : Covered graph search) (root : String) :
    Explored graph root { search with rootHasCycle := false }
      { search with rootHasCycle := false } := by
  refine ⟨fun _ h => .inl h, by simp [h.path], ?_, by simp, ?_, ?_⟩
  · exact fun node target hleft => h.closed node target hleft.1
  · intro _ node target hleft hedge
    exact ⟨h.closed node target hleft.1 hedge, by simp [h.path]⟩
  · exact fun _ node hleft => .inl hleft.1

/-- A root that was not visited is searched to the end. -/
theorem Covered.visitRoot (hsmall : graph.nodes.card ≤ maxDepth) (h : Covered graph search)
    (hroot : root ∈ graph.keys) :
    Covered graph (visitRoot graph search root) ∧ root ∈ (visitRoot graph search root).visited ∧
      ∀ node ∈ search.visited, node ∈ (visitRoot graph search root).visited := by
  by_cases hvisited : root ∈ search.visited
  · have hsame : Search.visitRoot graph search root = search := by
      rw [Search.visitRoot, Std.TreeSet.mem_iff_contains.mp hvisited, Bool.true_or, if_pos rfl]
    rw [hsame]
    exact ⟨h, hvisited, fun _ h => h⟩
  · have hnode := mem_nodes_of_mem_keys hroot
    have hlt := h.consistent.expanded_lt hnode hvisited
    have hbounds : maxDepth ≤ maxNodes := by decide
    have hsearch : Search.visitRoot graph search root =
        visit graph maxDepth root { search with rootHasCycle := false } := by
      rw [Search.visitRoot, if_neg]
      rw [Bool.or_eq_true, not_or, decide_eq_true_eq]
      exact ⟨hvisited, by omega⟩
    have hconsistent : Consistent graph { search with rootHasCycle := false } :=
      { h.consistent with }
    have hvisits : Visits graph root root { search with rootHasCycle := false }
        (visit graph maxDepth root { search with rootHasCycle := false }) :=
      visits_visit ⟨hconsistent, by simp [h.path], hvisited, hnode, by simp [h.path], fun _ => rfl⟩
    have hexplored := (h.explored root).moves hsmall hconsistent hvisits.moves
    have hextends := extends_of_moves hvisits.moves
    have hpath := hvisits.path.trans h.path
    rw [hsearch]
    refine ⟨⟨hconsistent.moves hvisits.moves, hpath, ?_, ?_⟩, hvisits.visited hsmall,
      hextends.visited⟩
    · exact fun node target hnode => hexplored.targets node target ⟨hnode, by simp [hpath]⟩
    · intro node hnode hcircuit
      by_cases hold : node ∈ search.visited
      · obtain ⟨root', hroot', cycle, hcycle, hreach⟩ := h.reported node hold hcircuit
        exact ⟨root', hroot', cycle, hextends.cycles cycle hcycle, hreach⟩
      · exact ⟨root, hroot, hexplored.reported hpath hnode hold hcircuit⟩

theorem Covered.visitRoots (hsmall : graph.nodes.card ≤ maxDepth) (roots : List String)
    (hroots : ∀ root ∈ roots, root ∈ graph.keys) (h : Covered graph search) :
    Covered graph (roots.foldl (Search.visitRoot graph) search) ∧
      (∀ root ∈ roots, root ∈ (roots.foldl (Search.visitRoot graph) search).visited) ∧
      ∀ node ∈ search.visited, node ∈ (roots.foldl (Search.visitRoot graph) search).visited := by
  induction roots generalizing search with
  | nil => exact ⟨h, by simp, fun _ h => h⟩
  | cons root roots ih =>
      obtain ⟨hfirst, hvisited, hkept⟩ := h.visitRoot hsmall (hroots root List.mem_cons_self)
      obtain ⟨hrest, hall, hkeeps⟩ :=
        ih (fun other hother => hroots other (List.mem_cons_of_mem root hother)) hfirst
      exact ⟨hrest, List.forall_mem_cons.mpr ⟨hkeeps root hvisited, hall⟩,
        fun node hnode => hkeeps node (hkept node hnode)⟩

end Search

namespace Adjacency

theorem OnCircuit.mem_keys {graph : Adjacency} {node : String} (h : graph.OnCircuit node) :
    node ∈ graph.keys := by
  obtain ⟨other, hne, hto, _⟩ := h
  rcases hto.cases_head with heq | ⟨target, hedge, _⟩
  · exact absurd heq.symm hne
  · exact hedge.mem_keys

/-- In a graph with no more nodes than a path may have, the search reports nothing exactly if there
is no cycle of at least two nodes, and for each of these there are a key and a report such that all
nodes of both can be reached from the key.  That a circuit may pass through a node more than once
makes no difference. -/
theorem cycles_complete (graph : Adjacency) (hsmall : graph.nodes.card ≤ maxDepth) :
    (graph.cycles = [] ↔ ∀ nodes, ¬ graph.IsCycle nodes) ∧
    ∀ nodes, graph.IsCircuit nodes → ∃ root ∈ graph.keys, ∃ cycle ∈ graph.cycles,
      (∀ node ∈ nodes, graph.Reachable root node) ∧ ∀ node ∈ cycle, graph.Reachable root node := by
  obtain ⟨hcovered, hkeys, _⟩ :=
    Search.covered_start.visitRoots hsmall graph.keys (fun root hroot => hroot)
  have hnear : ∀ nodes, graph.IsCircuit nodes → ∃ root ∈ graph.keys, ∃ cycle ∈ graph.cycles,
      (∀ node ∈ nodes, graph.Reachable root node) ∧ ∀ node ∈ cycle, graph.Reachable root node := by
    intro nodes hcircuit
    obtain ⟨first, hfirst, _⟩ := hcircuit.distinct
    have honCircuit := hcircuit.onCircuit hfirst
    obtain ⟨root, hroot, cycle, hcycle, hreach, hall⟩ :=
      hcovered.reported first (hkeys first honCircuit.mem_keys) honCircuit
    exact ⟨root, hroot, cycle, hcycle,
      fun node hnode => hreach.trans (hcircuit.reachable hfirst hnode), hall⟩
  refine ⟨⟨fun hnone nodes hcycle => ?_, fun hnone => ?_⟩, hnear⟩
  · obtain ⟨root, _, cycle, hmem, _⟩ := hnear nodes hcycle.toIsCircuit
    rw [hnone] at hmem
    contradiction
  · refine List.eq_nil_iff_forall_not_mem.mpr fun cycle hmem => ?_
    obtain ⟨nodes, hcycle, _⟩ := hcovered.consistent.cycles cycle hmem
    exact hnone nodes hcycle

/-- A node with an edge to itself and a repeated one, two in a circle, and a
target without an entry. -/
def smallGraph : Adjacency :=
  .ofList [("a", ["a", "b", "b"]), ("b", ["c"]), ("c", ["x", "b"]), ("d", [])]

/-- The circle of the small graph has a report. -/
theorem cycles_complete_smallGraph :
    smallGraph.nodes.card ≤ maxDepth ∧ smallGraph.IsCycle ["b", "c"] ∧ smallGraph.cycles ≠ [] := by
  have hsmall : smallGraph.nodes.card ≤ maxDepth := by decide
  have hcycle : smallGraph.IsCycle ["b", "c"] := ⟨⟨by decide, by decide⟩, by decide⟩
  exact ⟨hsmall, hcycle, fun hnone => (cycles_complete smallGraph hsmall).1.mp hnone _ hcycle⟩

end Adjacency
end Graph
end CodeSurvey
