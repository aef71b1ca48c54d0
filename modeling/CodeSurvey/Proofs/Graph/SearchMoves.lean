import Mathlib.Data.Finset.Card
import Mathlib.Data.List.Chain
import Mathlib.Logic.Relation
import CodeSurvey.Graph.Cycles

/-
The moves of a search for cycles.  A search enters a node, records a cycle or leaves a node again;
`visits_visit` says that a call makes such moves only, and comes back with the path it was called
with.  What holds of every search is then shown for one move.
-/

namespace CodeSurvey
namespace Graph

namespace Adjacency

variable {graph : Adjacency} {node target : String}

def Edge (graph : Adjacency) (node target : String) : Prop := target ∈ graph.targets node

instance : Decidable (graph.Edge node target) := inferInstanceAs (Decidable (_ ∈ _))

def Reachable (graph : Adjacency) : String → String → Prop := Relation.ReflTransGen graph.Edge

/-- All names of the graph, those of keys and those of targets. -/
def nodes (graph : Adjacency) : Finset String :=
  (graph.keys ++ graph.keys.flatMap graph.targets).toFinset

/-- A walk through `nodes` that ends where it began, and visits at least two nodes. -/
structure IsCircuit (graph : Adjacency) (nodes : List String) : Prop where
  chain : (nodes ++ nodes.take 1).IsChain graph.Edge
  distinct : ∃ a ∈ nodes, ∃ b ∈ nodes, a ≠ b

/-- A circuit that visits no node twice. -/
structure IsCycle (graph : Adjacency) (nodes : List String) :
    Prop extends graph.IsCircuit nodes where
  nodup : nodes.Nodup

theorem Edge.mem_keys (h : graph.Edge node target) : node ∈ graph.keys := by
  rw [Std.TreeMap.mem_keys]
  by_contra hnode
  rw [Edge, targets, Std.TreeMap.getD_eq_fallback hnode] at h
  contradiction

theorem mem_nodes_of_mem_keys (h : node ∈ graph.keys) : node ∈ graph.nodes := by
  rw [nodes, List.mem_toFinset]
  exact List.mem_append_left _ h

theorem Edge.mem_nodes (h : graph.Edge node target) : target ∈ graph.nodes := by
  rw [nodes, List.mem_toFinset]
  exact List.mem_append_right _ (List.mem_flatMap.mpr ⟨node, h.mem_keys, h⟩)

@[simp] theorem mem_sortedTargets : target ∈ graph.sortedTargets node ↔ graph.Edge node target := by
  rw [sortedTargets, Std.TreeSet.mem_toList, Std.TreeSet.mem_ofList, List.contains_iff_mem, Edge]

theorem reachable_of_mem_chain {first : String} {rest : List String}
    (h : (first :: rest).IsChain graph.Edge) (hnode : node ∈ first :: rest) :
    graph.Reachable first node := by
  induction rest generalizing first with
  | nil =>
      rw [List.mem_singleton.mp hnode]
      exact .refl
  | cons second rest ih =>
      rw [List.isChain_cons_cons] at h
      rcases List.mem_cons.mp hnode with rfl | hnode
      · exact .refl
      · exact .head h.1 (ih h.2 hnode)

end Adjacency

namespace Search

open Adjacency

variable {graph : Adjacency} {root node target : String} {search after : Search}

/-- The moves of a search from a root.  In a graph that is no larger than a path may be, a node is
left only when every edge from it was followed. -/
inductive Move (graph : Adjacency) (root : String) (search : Search) : Search → Prop
  | enter {node : String} (hnew : node ∉ search.visited) (hnode : node ∈ graph.nodes)
      (hdepth : search.path.length < maxDepth) (hcount : search.expanded < maxNodes)
      (hfrom : ∀ last ∈ search.path.head?, graph.Edge last node)
      (hroot : search.path = [] → node = root) : Move graph root search (search.enter node)
  | record {node target : String} (hlast : search.path.head? = some node)
      (hedge : graph.Edge node target) (hne : target ≠ node) (hpath : target ∈ search.path) :
      Move graph root search (search.record target)
  | leave {node : String} (hlast : search.path.head? = some node)
      (hdone : graph.nodes.card ≤ maxDepth → ∀ target, graph.Edge node target → target ≠ node →
        target ∈ search.visited ∧ (target ∈ search.path → search.rootHasCycle = true)) :
      Move graph root search (search.leave node)

abbrev Moves (graph : Adjacency) (root : String) : Search → Search → Prop :=
  Relation.ReflTransGen (Move graph root)

theorem record_eq_self (h : search.rootHasCycle = true) (target : String) :
    search.record target = search := by
  rw [record, h, if_pos rfl]

theorem record_eq (h : search.rootHasCycle = false) (target : String) :
    search.record target =
      { search with
        cycles := search.cycles ++ [closedCycle search.path target]
        rootHasCycle := true } := by
  rw [record, h, if_neg Bool.false_ne_true]

theorem rootHasCycle_record (search : Search) (target : String) :
    (search.record target).rootHasCycle = true := by
  cases h : search.rootHasCycle with
  | true => rw [record_eq_self h, h]
  | false => rw [record_eq h]

theorem path_record (search : Search) (target : String) :
    (search.record target).path = search.path := by
  cases h : search.rootHasCycle with
  | true => rw [record_eq_self h]
  | false => rw [record_eq h]

theorem visited_record (search : Search) (target : String) :
    (search.record target).visited = search.visited := by
  cases h : search.rootHasCycle with
  | true => rw [record_eq_self h]
  | false => rw [record_eq h]

theorem mem_insert_iff {names : Std.TreeSet String} :
    target ∈ names.insert node ↔ target = node ∨ target ∈ names := by
  rw [Std.TreeSet.mem_insert, Std.LawfulEqCmp.compare_eq_iff_eq, eq_comm]

theorem mem_erase_iff {names : Std.TreeSet String} :
    target ∈ names.erase node ↔ target ≠ node ∧ target ∈ names := by
  rw [Std.TreeSet.mem_erase, Ne, Std.LawfulEqCmp.compare_eq_iff_eq, eq_comm]

theorem mem_visited_enter :
    target ∈ (search.enter node).visited ↔ target = node ∨ target ∈ search.visited := mem_insert_iff

/-- Nothing is forgotten during the search from a root. -/
structure Extends (search after : Search) : Prop where
  visited : ∀ node ∈ search.visited, node ∈ after.visited
  cycles : ∀ cycle ∈ search.cycles, cycle ∈ after.cycles
  rootHasCycle : search.rootHasCycle = true → after.rootHasCycle = true

theorem extends_of_move (h : Move graph root search after) : Extends search after := by
  cases h with
  | enter => exact ⟨fun node hnode => mem_visited_enter.mpr (.inr hnode), fun _ h => h, id⟩
  | record =>
      cases hcycle : search.rootHasCycle with
      | true =>
          rw [record_eq_self hcycle]
          exact ⟨fun _ h => h, fun _ h => h, id⟩
      | false =>
          rw [record_eq hcycle]
          exact ⟨fun _ h => h, fun _ h => List.mem_append_left _ h, fun _ => rfl⟩
  | leave => exact ⟨fun _ h => h, fun _ h => h, id⟩

theorem extends_of_moves (h : Moves graph root search after) : Extends search after := by
  induction h with
  | refl => exact ⟨fun _ h => h, fun _ h => h, id⟩
  | tail _ hmove ih =>
      have hnext := extends_of_move hmove
      exact ⟨fun node hnode => hnext.visited node (ih.visited node hnode),
        fun cycle hcycle => hnext.cycles cycle (ih.cycles cycle hcycle),
        fun h => hnext.rootHasCycle (ih.rootHasCycle h)⟩

theorem path_leave {rest : List String} (h : search.path = node :: rest) :
    (search.leave node).path = rest := by
  rw [leave, h, List.drop_one, List.tail_cons]

/-- The nodes of the cycle that an edge back to `target` closes, from `target` on. -/
def circle (path : List String) (target : String) : List String :=
  target :: (path.takeWhile (· != target)).reverse

theorem closedCycle_eq (path : List String) (target : String) :
    closedCycle path target = circle path target ++ (circle path target).take 1 := rfl

theorem mem_path_of_mem_circle {path : List String} (htarget : target ∈ path)
    (h : node ∈ circle path target) : node ∈ path := by
  rcases List.mem_cons.mp h with rfl | h
  · exact htarget
  · exact (List.takeWhile_sublist _).subset (List.mem_reverse.mp h)

/-- Going back to a node of the path closes a cycle. -/
theorem isCycle_circle {path : List String} (hnodup : path.Nodup)
    (hchain : path.IsChain (flip graph.Edge)) (hlast : path.head? = some node)
    (hedge : graph.Edge node target) (hne : target ≠ node) (htarget : target ∈ path) :
    graph.IsCycle (circle path target) := by
  obtain ⟨before, rest, rfl, hbefore⟩ := List.eq_append_cons_of_mem htarget
  have htake : (before ++ target :: rest).takeWhile (· != target) = before := by
    rw [List.takeWhile_append_of_pos, List.takeWhile_cons_of_neg, List.append_nil]
    · simp
    · intro other hother
      rw [bne_iff_ne]
      rintro rfl
      exact hbefore hother
  have hcircle : circle (before ++ target :: rest) target = (before ++ [target]).reverse := by
    rw [circle, htake, List.reverse_append, List.reverse_singleton, List.singleton_append]
  have hpart : before ++ target :: rest = (before ++ [target]) ++ rest := by simp
  have hhead : (before ++ [target]).head? = some node := by
    cases before with
    | nil => exact hlast
    | cons first before => exact hlast
  rw [hpart] at hnodup hchain
  refine ⟨⟨?_, target, ?_, node, ?_, hne⟩, ?_⟩
  · rw [hcircle, List.isChain_append, List.isChain_reverse]
    refine ⟨hchain.left_of_append, ?_, ?_⟩
    · simp
    · rw [List.getLast?_reverse, hhead]
      simpa using hedge
  · exact List.mem_cons_self
  · rw [hcircle, List.mem_reverse]
    exact List.mem_of_head? hhead
  · rw [hcircle, List.nodup_reverse]
    exact hnodup.of_append_left

/-- What holds of every search, whatever the size of the graph. -/
structure Consistent (graph : Adjacency) (search : Search) : Prop where
  nodup : search.path.Nodup
  onPath : ∀ node, node ∈ search.onPath ↔ node ∈ search.path
  visited : ∀ node ∈ search.path, node ∈ search.visited
  nodes : ∀ node ∈ search.visited, node ∈ graph.nodes
  expanded : search.expanded = search.visited.size
  chain : search.path.IsChain (flip graph.Edge)
  depth : search.path.length ≤ maxDepth
  count : search.expanded ≤ maxNodes
  cycles : ∀ cycle ∈ search.cycles, ∃ nodes, graph.IsCycle nodes ∧ cycle = nodes ++ nodes.take 1

theorem consistent_start : Consistent graph start := by
  refine ⟨List.nodup_nil, ?_, by simp [start], ?_, rfl, .nil, Nat.zero_le _, Nat.zero_le _,
    by simp [start]⟩
  · simp [start]
  · simp [start]

theorem Consistent.enter (h : Consistent graph search) (hnew : node ∉ search.visited)
    (hnode : node ∈ graph.nodes) (hdepth : search.path.length < maxDepth)
    (hcount : search.expanded < maxNodes)
    (hfrom : ∀ last ∈ search.path.head?, graph.Edge last node) :
    Consistent graph (search.enter node) := by
  refine ⟨List.nodup_cons.mpr ⟨fun hpath => hnew (h.visited node hpath), h.nodup⟩, ?_,
    ?_, ?_, ?_, ?_, hdepth, hcount, h.cycles⟩
  · intro other
    simp only [Search.enter, mem_insert_iff, h.onPath, List.mem_cons]
  · intro other hother
    rcases List.mem_cons.mp hother with rfl | hother
    · exact mem_visited_enter.mpr (.inl rfl)
    · exact mem_visited_enter.mpr (.inr (h.visited other hother))
  · intro other hother
    rcases mem_visited_enter.mp hother with rfl | hother
    · exact hnode
    · exact h.nodes other hother
  · rw [Search.enter, Std.TreeSet.size_insert, if_neg (mt Std.TreeSet.mem_iff_contains.mpr hnew),
      h.expanded]
  · exact List.isChain_cons.mpr ⟨hfrom, h.chain⟩

theorem Consistent.record (h : Consistent graph search) (hlast : search.path.head? = some node)
    (hedge : graph.Edge node target) (hne : target ≠ node) (hpath : target ∈ search.path) :
    Consistent graph (search.record target) := by
  cases hcycle : search.rootHasCycle with
  | true =>
      rw [record_eq_self hcycle]
      exact h
  | false =>
      rw [record_eq hcycle]
      refine { h with cycles := ?_ }
      intro cycle hmem
      rcases List.mem_append.mp hmem with hmem | hmem
      · exact h.cycles cycle hmem
      · rw [List.mem_singleton.mp hmem, closedCycle_eq]
        exact ⟨circle search.path target, isCycle_circle h.nodup h.chain hlast hedge hne hpath, rfl⟩

theorem Consistent.leave (h : Consistent graph search) (hlast : search.path.head? = some node) :
    Consistent graph (search.leave node) := by
  obtain ⟨rest, hrest⟩ := List.head?_eq_some_iff.mp hlast
  have hnodup := h.nodup
  have hchain := h.chain
  rw [hrest] at hnodup hchain
  have hpath := path_leave hrest
  refine ⟨?_, ?_, ?_, h.nodes, h.expanded, ?_, ?_, h.count, h.cycles⟩
  · rw [hpath]
    exact hnodup.of_cons
  · intro other
    rw [hpath]
    simp only [Search.leave, mem_erase_iff, h.onPath, hrest, List.mem_cons]
    constructor
    · rintro ⟨hne, rfl | hother⟩
      · exact absurd rfl hne
      · exact hother
    · intro hother
      refine ⟨?_, .inr hother⟩
      rintro rfl
      exact (List.nodup_cons.mp hnodup).1 hother
  · rw [hpath]
    exact fun other hother => h.visited other (hrest ▸ List.mem_cons_of_mem node hother)
  · rw [hpath]
    exact hchain.tail
  · rw [hpath]
    have hdepth := h.depth
    rw [hrest, List.length_cons] at hdepth
    omega

theorem Consistent.move (h : Consistent graph search) (hmove : Move graph root search after) :
    Consistent graph after := by
  cases hmove with
  | enter hnew hnode hdepth hcount hfrom => exact h.enter hnew hnode hdepth hcount hfrom
  | record hlast hedge hne hpath => exact h.record hlast hedge hne hpath
  | leave hlast => exact h.leave hlast

theorem Consistent.moves (h : Consistent graph search) (hmoves : Moves graph root search after) :
    Consistent graph after := by
  induction hmoves with
  | refl => exact h
  | tail _ hmove ih => exact ih.move hmove

theorem length_lt_card {names : List String} (hnodup : names.Nodup)
    (hnames : ∀ name ∈ names, name ∈ graph.nodes) (hnode : node ∈ graph.nodes)
    (hnew : node ∉ names) : names.length < graph.nodes.card := by
  rw [← List.toFinset_card_of_nodup hnodup]
  refine Finset.card_lt_card ((Finset.ssubset_iff_of_subset ?_).mpr ⟨node, hnode, ?_⟩)
  · exact fun name hname => hnames name (List.mem_toFinset.mp hname)
  · rwa [List.mem_toFinset]

/-- While a node is left to be visited, the path is shorter than the graph is large. -/
theorem Consistent.path_lt (h : Consistent graph search) (hnode : node ∈ graph.nodes)
    (hnew : node ∉ search.visited) : search.path.length < graph.nodes.card :=
  length_lt_card h.nodup (fun other hother => h.nodes other (h.visited other hother)) hnode
    (fun hpath => hnew (h.visited node hpath))

theorem Consistent.expanded_lt (h : Consistent graph search) (hnode : node ∈ graph.nodes)
    (hnew : node ∉ search.visited) : search.expanded < graph.nodes.card := by
  have hnodup : search.visited.toList.Nodup := by
    refine Std.TreeSet.distinct_toList.imp fun hne => ?_
    rintro rfl
    exact hne (Std.LawfulEqCmp.compare_eq_iff_eq.mpr rfl)
  rw [h.expanded, ← Std.TreeSet.length_toList]
  refine length_lt_card hnodup (fun other hother => ?_) hnode ?_
  · exact h.nodes other (Std.TreeSet.mem_toList.mp hother)
  · rwa [Std.TreeSet.mem_toList]

/-- What following edges from the end `node` of the path comes to. -/
structure Follows (graph : Adjacency) (root node : String) (targets : List String)
    (search after : Search) : Prop where
  moves : Moves graph root search after
  path : after.path = search.path
  done : graph.nodes.card ≤ maxDepth → ∀ target ∈ targets, target ≠ node →
    target ∈ after.visited ∧ (target ∈ after.path → after.rootHasCycle = true)

theorem Follows.cons {targets : List String} {between : Search}
    (h : Follows graph root node [target] search between)
    (hrest : Follows graph root node targets between after) :
    Follows graph root node (target :: targets) search after := by
  refine ⟨h.moves.trans hrest.moves, hrest.path.trans h.path, fun hsmall => ?_⟩
  refine List.forall_mem_cons.mpr ⟨fun hne => ?_, hrest.done hsmall⟩
  have hextends := extends_of_moves hrest.moves
  obtain ⟨hvisited, hcycle⟩ := h.done hsmall target (List.mem_singleton_self target) hne
  refine ⟨hextends.visited target hvisited, fun hpath => hextends.rootHasCycle (hcycle ?_)⟩
  rwa [← hrest.path]

/-- What a call of `visit` comes to. -/
structure Visits (graph : Adjacency) (root node : String) (search after : Search) : Prop where
  moves : Moves graph root search after
  path : after.path = search.path
  visited : graph.nodes.card ≤ maxDepth → node ∈ after.visited

/-- When `visit` may be called for a node. -/
structure Admits (graph : Adjacency) (root : String) (room : Nat) (search : Search)
    (node : String) : Prop where
  consistent : Consistent graph search
  room : search.path.length + room = maxDepth
  new : node ∉ search.visited
  mem_nodes : node ∈ graph.nodes
  edge : ∀ last ∈ search.path.head?, graph.Edge last node
  first : search.path = [] → node = root

theorem follows_follow {room : Nat} {rest : List String}
    (hvisit : ∀ search target, Admits graph root room search target →
      Visits graph root target search (visit graph room target search))
    (h : Consistent graph search) (hroom : search.path.length + room = maxDepth)
    (hpath : search.path = node :: rest) (hedge : graph.Edge node target) :
    Follows graph root node [target] search (follow (visit graph room) node search target) := by
  have hlast : search.path.head? = some node := by rw [hpath, List.head?_cons]
  unfold follow
  split
  · next hself =>
      refine ⟨.refl, rfl, fun _ other hother hne => ?_⟩
      rw [List.mem_singleton.mp hother] at hne
      exact absurd (beq_iff_eq.mp hself) hne
  · next hself =>
      have hne : target ≠ node := fun heq => hself (beq_iff_eq.mpr heq)
      split
      · next hnew =>
          have hnew' : target ∉ search.visited := by
            rwa [Std.TreeSet.mem_iff_contains, Bool.not_eq_true, ← Bool.not_eq_true']
          have hvisits := hvisit search target
            ⟨h, hroom, hnew', hedge.mem_nodes, by simpa [hlast] using hedge, by simp [hpath]⟩
          refine ⟨hvisits.moves, hvisits.path, fun hsmall other hother _ => ?_⟩
          rw [List.mem_singleton.mp hother]
          refine ⟨hvisits.visited hsmall, fun hother => ?_⟩
          rw [hvisits.path] at hother
          exact absurd (h.visited target hother) hnew'
      · next hold =>
          have hold' : target ∈ search.visited := by simpa using hold
          split
          · next honPath =>
              have htarget : target ∈ search.path := (h.onPath target).mp (by simpa using honPath)
              refine ⟨.single (.record hlast hedge hne htarget), path_record ..,
                fun _ other hother _ => ?_⟩
              rw [List.mem_singleton.mp hother, visited_record]
              exact ⟨hold', fun _ => rootHasCycle_record ..⟩
          · next honPath =>
              refine ⟨.refl, rfl, fun _ other hother _ => ?_⟩
              rw [List.mem_singleton.mp hother]
              refine ⟨hold',
                fun htarget => absurd ((h.onPath target).mpr htarget) (by simpa using honPath)⟩

theorem follows_foldl {room : Nat} {rest : List String}
    (hvisit : ∀ search target, Admits graph root room search target →
      Visits graph root target search (visit graph room target search))
    (targets : List String) (hedges : ∀ target ∈ targets, graph.Edge node target)
    (h : Consistent graph search) (hroom : search.path.length + room = maxDepth)
    (hpath : search.path = node :: rest) :
    Follows graph root node targets search
      (targets.foldl (follow (visit graph room) node) search) := by
  induction targets generalizing search with
  | nil => exact ⟨.refl, rfl, by simp⟩
  | cons target targets ih =>
      have hfirst := follows_follow hvisit h hroom hpath (hedges target List.mem_cons_self)
      refine hfirst.cons (ih (fun other hother => hedges other (List.mem_cons_of_mem target hother))
        (h.moves hfirst.moves) ?_ ?_)
      · rw [hfirst.path, hroom]
      · rw [hfirst.path, hpath]

/-- A call makes moves only, and leaves the path as it was.  In a small graph no
bound cuts it short. -/
theorem visits_visit {room : Nat} (h : Admits graph root room search node) :
    Visits graph root node search (visit graph room node search) := by
  induction room generalizing search node with
  | zero =>
      refine ⟨.refl, rfl, fun hsmall => ?_⟩
      have hlt := h.consistent.path_lt h.mem_nodes h.new
      have hroom := h.room
      omega
  | succ room ih =>
      rw [visit]
      split
      · next hfull =>
          refine ⟨.refl, rfl, fun hsmall => ?_⟩
          have hlt := h.consistent.expanded_lt h.mem_nodes h.new
          have hbounds : maxDepth ≤ maxNodes := by decide
          omega
      · next hfree =>
          have hroom := h.room
          have henter : Move graph root search (search.enter node) :=
            .enter h.new h.mem_nodes (by omega) (by omega) h.edge h.first
          have hfollows := follows_foldl (fun _ _ hadmits => ih hadmits) (graph.sortedTargets node)
            (fun target htarget => mem_sortedTargets.mp htarget) (h.consistent.move henter)
            (by simp only [enter, List.length_cons]; omega)
            (show (search.enter node).path = node :: search.path from rfl)
          have hpath : ((graph.sortedTargets node).foldl (follow (visit graph room) node)
              (search.enter node)).path = node :: search.path := hfollows.path
          refine ⟨.head henter (hfollows.moves.tail (.leave (by rw [hpath, List.head?_cons]) ?_)),
            ?_, ?_⟩
          · intro hsmall target hedge hne
            exact hfollows.done hsmall target (mem_sortedTargets.mpr hedge) hne
          · exact path_leave hpath
          · intro _
            exact (extends_of_moves hfollows.moves).visited node (mem_visited_enter.mpr (.inl rfl))

end Search
end Graph
end CodeSurvey
