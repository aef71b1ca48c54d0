import Mathlib.Data.Set.Card
import Mathlib.Order.Bounds.Basic
import CodeSurvey.Graph.Depth
import CodeSurvey.Proofs.Graph.SearchMoves
import CodeSurvey.Sum

/-
The depth of a node is the length of a longest path from it on which no node comes twice, as far as
the bounds of the search allow.  The search enters a node once for each simple path that leads to
it, so `routesFrom` counts what it enters.  `Finds` says what one call comes to: always the length
of a real path, and of a longest one if the count does not cut it short.  It is carried along the
targets of a node (`Tried`), and to a whole call by induction on the room.
-/

namespace CodeSurvey
namespace Graph

namespace Adjacency

variable {graph : Adjacency} {onPath : Std.TreeSet String} {node target : String}
  {path : List String} {choices : List Nat} {room : Nat}

/-- The way from `node` through `path` follows edges and meets no node twice.  It has as many edges
as `path` has nodes. -/
structure IsSimplePath (graph : Adjacency) (node : String) (path : List String) : Prop where
  chain : (node :: path).IsChain graph.Edge
  nodup : (node :: path).Nodup

/-- The nodes after `node` to which choices lead.  A choice is a place in the list of targets, so
that a target that is listed twice can be chosen in two ways. -/
def along (graph : Adjacency) : String → List Nat → Option (List String)
  | _, [] => some []
  | node, choice :: rest =>
    match (graph.targets node)[choice]? with
    | none => none
    | some target => (along graph target rest).map (target :: ·)

/-- The simple paths from a node, each as often as the lists of targets offer it. -/
def simpleRoutes (graph : Adjacency) (node : String) : Set (List Nat) :=
  {choices | ∃ path, graph.along node choices = some path ∧ graph.IsSimplePath node path}

/-- A simple path that keeps out of `onPath`. -/
structure IsSimpleOutside (graph : Adjacency) (onPath : Std.TreeSet String) (node : String)
    (path : List String) : Prop extends graph.IsSimplePath node path where
  outside : ∀ other ∈ node :: path, other ∉ onPath

theorem isSimpleOutside_empty : graph.IsSimpleOutside {} node path ↔ graph.IsSimplePath node path :=
  ⟨fun h => h.toIsSimplePath, fun h => ⟨h, fun _ _ => Std.TreeSet.not_mem_emptyc⟩⟩

theorem isSimpleOutside_nil : graph.IsSimpleOutside onPath node [] ↔ node ∉ onPath := by
  constructor
  · exact fun h => h.outside node (List.mem_singleton_self node)
  · intro h
    exact ⟨⟨List.isChain_singleton node, List.nodup_singleton node⟩,
      List.forall_mem_singleton.mpr h⟩

theorem isSimpleOutside_cons : graph.IsSimpleOutside onPath node (target :: path) ↔
    node ∉ onPath ∧ graph.Edge node target ∧
    graph.IsSimpleOutside (onPath.insert node) target path := by
  constructor
  · rintro ⟨⟨hchain, hnodup⟩, houtside⟩
    rw [List.isChain_cons_cons] at hchain
    rw [List.nodup_cons] at hnodup
    obtain ⟨hnode, hrest⟩ := List.forall_mem_cons.mp houtside
    refine ⟨hnode, hchain.1, ⟨hchain.2, hnodup.2⟩, ?_⟩
    intro other hother hinside
    rcases Search.mem_insert_iff.mp hinside with rfl | hinside
    · exact hnodup.1 hother
    · exact hrest other hother hinside
  · rintro ⟨hnode, hedge, ⟨hchain, hnodup⟩, houtside⟩
    refine ⟨⟨List.isChain_cons_cons.mpr ⟨hedge, hchain⟩, List.nodup_cons.mpr ⟨?_, hnodup⟩⟩, ?_⟩
    · exact fun hmem => houtside node hmem (Search.mem_insert_iff.mpr (.inl rfl))
    · refine List.forall_mem_cons.mpr ⟨hnode, fun other hother hinside => ?_⟩
      exact houtside other hother (Search.mem_insert_iff.mpr (.inr hinside))

theorem IsSimpleOutside.not_mem (h : graph.IsSimpleOutside onPath node path) : node ∉ onPath :=
  h.outside node List.mem_cons_self

/-- A simple path is no longer than the graph is large. -/
theorem IsSimplePath.length_le (h : graph.IsSimplePath node path) :
    path.length ≤ graph.nodes.card := by
  have hnodes : ∀ (path : List String) (node : String), (node :: path).IsChain graph.Edge →
      ∀ other ∈ path, other ∈ graph.nodes := by
    intro path
    induction path with
    | nil => simp
    | cons first rest ih =>
        intro node hchain
        rw [List.isChain_cons_cons] at hchain
        exact List.forall_mem_cons.mpr ⟨hchain.1.mem_nodes, ih first hchain.2⟩
  rw [← List.toFinset_card_of_nodup (List.nodup_cons.mp h.nodup).2]
  refine Finset.card_le_card fun other hother => ?_
  exact hnodes path node h.chain other (List.mem_toFinset.mp hother)

/-! ## Counting paths -/

/-- The choices of the simple paths outside `onPath` with at most `room` nodes, in
the order of a search. -/
def routesFrom (graph : Adjacency) : Nat → Std.TreeSet String → String → List (List Nat)
  | 0, _, _ => []
  | room + 1, onPath, node =>
    [] :: (graph.targets node).zipIdx.flatMap fun entry =>
      if (onPath.insert node).contains entry.1 then []
      else (routesFrom graph room (onPath.insert node) entry.1).map (entry.2 :: ·)

theorem mem_routesFrom_cons {choice : Nat} :
    choice :: choices ∈ routesFrom graph (room + 1) onPath node ↔
    ∃ target, (graph.targets node)[choice]? = some target ∧ target ∉ onPath.insert node ∧
      choices ∈ routesFrom graph room (onPath.insert node) target := by
  simp only [routesFrom, List.mem_cons, reduceCtorEq, false_or, List.mem_flatMap, Prod.exists,
    List.mem_zipIdx_iff_getElem?, Std.TreeSet.contains_iff_mem]
  constructor
  · rintro ⟨target, place, hplace, hmem⟩
    split at hmem
    · contradiction
    · next houtside =>
        simp only [List.mem_map, List.cons.injEq, exists_eq_right_right] at hmem
        obtain ⟨hmem, rfl⟩ := hmem
        exact ⟨target, hplace, houtside, hmem⟩
  · rintro ⟨target, hplace, houtside, hmem⟩
    refine ⟨target, choice, hplace, ?_⟩
    rw [if_neg houtside]
    exact List.mem_map_of_mem hmem

theorem mem_routesFrom_iff (hnode : node ∉ onPath) : choices ∈ routesFrom graph room onPath node ↔
    choices.length < room ∧ ∃ path, graph.along node choices = some path ∧
    graph.IsSimpleOutside onPath node path := by
  induction room generalizing onPath node choices with
  | zero => simp [routesFrom]
  | succ room ih =>
      cases choices with
      | nil => simp [routesFrom, along, isSimpleOutside_nil, hnode]
      | cons choice rest =>
          rw [mem_routesFrom_cons, along, List.length_cons, Nat.add_lt_add_iff_right]
          cases hplace : (graph.targets node)[choice]? with
          | none => simp
          | some target =>
              have hedge : graph.Edge node target := List.mem_of_getElem? hplace
              simp only [Option.some.injEq, exists_eq_left', Option.map_eq_some_iff,
                exists_exists_and_eq_and, isSimpleOutside_cons, hnode, hedge,
                not_false_eq_true, true_and]
              constructor
              · rintro ⟨houtside, hrest⟩
                exact (ih houtside).mp hrest
              · rintro ⟨hlength, path, halong, hsimple⟩
                exact ⟨hsimple.not_mem, (ih hsimple.not_mem).mpr ⟨hlength, path, halong, hsimple⟩⟩

theorem nodup_routesFrom (graph : Adjacency) (room : Nat) (onPath : Std.TreeSet String)
    (node : String) : (routesFrom graph room onPath node).Nodup := by
  induction room generalizing onPath node with
  | zero => exact List.nodup_nil
  | succ room ih =>
      rw [routesFrom, List.nodup_cons, List.nodup_flatMap]
      refine ⟨by simp, ?_, ?_⟩
      · intro entry _
        split
        · exact List.nodup_nil
        · exact (ih _ _).map fun _ _ h => (List.cons.inj h).2
      · -- routes over two places of the list differ in their first choice
        have hplaces : (graph.targets node).zipIdx.Pairwise fun a b => a.2 ≠ b.2 := by
          rw [← List.pairwise_map, List.zipIdx_map_snd]
          exact List.nodup_range'
        refine hplaces.imp fun {a b} hne => ?_
        intro choices ha hb
        dsimp only at ha hb
        split at ha
        · contradiction
        · split at hb
          · contradiction
          · obtain ⟨_, _, rfl⟩ := List.mem_map.mp ha
            obtain ⟨_, _, heq⟩ := List.mem_map.mp hb
            exact hne (List.cons.inj heq).1.symm

theorem along_length (h : graph.along node choices = some path) : path.length = choices.length := by
  induction choices generalizing node path with
  | nil =>
      rw [along, Option.some.injEq] at h
      rw [← h]
      rfl
  | cons choice rest ih =>
      rw [along] at h
      split at h
      · contradiction
      · obtain ⟨further, hfurther, rfl⟩ := Option.map_eq_some_iff.mp h
        rw [List.length_cons, List.length_cons, ih hfurther]

theorem encard_routesFrom (graph : Adjacency) (room : Nat) (onPath : Std.TreeSet String)
    (node : String) :
    {choices | choices ∈ routesFrom graph room onPath node}.encard =
      (routesFrom graph room onPath node).length := by
  rw [← List.coe_toFinset, Set.encard_coe_eq_coe_finsetCard,
    List.toFinset_card_of_nodup (nodup_routesFrom graph room onPath node)]

theorem length_routesFrom_le (graph : Adjacency) (room : Nat) (node : String) :
    (routesFrom graph room {} node).length ≤ (graph.simpleRoutes node).encard := by
  rw [← encard_routesFrom]
  refine Set.encard_le_encard fun choices hchoices => ?_
  obtain ⟨_, path, halong, hsimple⟩ := (mem_routesFrom_iff Std.TreeSet.not_mem_emptyc).mp hchoices
  exact ⟨path, halong, hsimple.toIsSimplePath⟩

/-- With room for all nodes of the graph, and the first, no route is missed. -/
theorem encard_simpleRoutes_le (graph : Adjacency) (node : String) :
    (graph.simpleRoutes node).encard ≤
      (routesFrom graph (graph.nodes.card + 1) {} node).length := by
  rw [← encard_routesFrom]
  refine Set.encard_le_encard ?_
  rintro choices ⟨path, halong, hsimple⟩
  refine (mem_routesFrom_iff Std.TreeSet.not_mem_emptyc).mpr ⟨?_, path, halong,
    isSimpleOutside_empty.mpr hsimple⟩
  rw [← along_length halong]
  exact Nat.lt_succ_of_le hsimple.length_le

/-- How many routes go on from a target, if it is not on the path. -/
def routesThrough (graph : Adjacency) (room : Nat) (onPath : Std.TreeSet String) (target : String) :
    Nat :=
  if onPath.contains target then 0 else (routesFrom graph room onPath target).length

theorem length_routesFrom_succ (graph : Adjacency) (room : Nat) (onPath : Std.TreeSet String)
    (node : String) :
    (routesFrom graph (room + 1) onPath node).length =
      1 + ((graph.targets node).map (routesThrough graph room (onPath.insert node))).sum := by
  have hplaces : ∀ (targets : List String) (place : Nat),
      ((targets.zipIdx place).flatMap fun entry =>
        if (onPath.insert node).contains entry.1 then []
        else (routesFrom graph room (onPath.insert node) entry.1).map (entry.2 :: ·)).length =
      (targets.map (routesThrough graph room (onPath.insert node))).sum := by
    intro targets
    induction targets with
    | nil => exact fun place => rfl
    | cons target rest ih =>
        intro place
        rw [List.zipIdx_cons, List.flatMap_cons, List.length_append, ih, List.map_cons,
          List.sum_cons, routesThrough]
        congr 1
        split
        · rfl
        · exact List.length_map _
  rw [routesFrom, List.length_cons, hplaces, Nat.add_comm]

end Adjacency

/-! ## The search -/

namespace DepthSearch

open Adjacency

variable {graph : Adjacency} {room expanded : Nat} {onPath : Std.TreeSet String}
  {node target : String} {tried : List String} {search : DepthSearch} {depth : String → Nat →
    DepthSearch}

/-- What a call from `node` comes to that began with `expanded` nodes entered. -/
structure Finds (graph : Adjacency) (room : Nat) (onPath : Std.TreeSet String) (node : String)
    (expanded : Nat) (result : DepthSearch) : Prop where
  real : ∃ path, graph.IsSimpleOutside onPath node path ∧ path.length = result.best
  best_le : result.best ≤ room
  uncut : expanded + (routesFrom graph room onPath node).length ≤ maxNodes →
    result.expanded = expanded + (routesFrom graph room onPath node).length ∧
      ∀ path, graph.IsSimpleOutside onPath node path → path.length ≤ room →
        path.length ≤ result.best

/-- What is known when some of the targets of `node` were tried. -/
structure Tried (graph : Adjacency) (room : Nat) (onPath : Std.TreeSet String) (node : String)
    (expanded : Nat) (tried : List String) (search : DepthSearch) : Prop where
  real : ∃ path, graph.IsSimpleOutside onPath node path ∧ path.length = search.best
  best_le : search.best ≤ room + 1
  uncut :
    expanded + 1 + (tried.map (routesThrough graph room (onPath.insert node))).sum ≤ maxNodes →
    search.expanded =
      expanded + 1 + (tried.map (routesThrough graph room (onPath.insert node))).sum ∧
      ∀ target ∈ tried, ∀ path, graph.IsSimpleOutside (onPath.insert node) target path →
        path.length ≤ room → path.length + 1 ≤ search.best

theorem follow_of_mem (h : target ∈ onPath) : follow depth onPath search target = search :=
  if_pos (Std.TreeSet.contains_iff_mem.mpr h)

theorem follow_of_not_mem (h : target ∉ onPath) :
    follow depth onPath search target =
      ⟨max search.best (1 + (depth target search.expanded).best),
        (depth target search.expanded).expanded⟩ :=
  if_neg (mt Std.TreeSet.contains_iff_mem.mp h)

theorem tried_nil (hnode : node ∉ onPath) :
    Tried graph room onPath node expanded [] ⟨0, expanded + 1⟩ :=
  ⟨⟨[], isSimpleOutside_nil.mpr hnode, rfl⟩, Nat.zero_le _, fun _ => ⟨rfl, by simp⟩⟩

/-- A target on the path changes nothing. -/
theorem Tried.pass (h : Tried graph room onPath node expanded tried search)
    (hinside : target ∈ onPath.insert node) :
    Tried graph room onPath node expanded (tried ++ [target]) search := by
  have hcount : routesThrough graph room (onPath.insert node) target = 0 :=
    if_pos (Std.TreeSet.contains_iff_mem.mpr hinside)
  refine ⟨h.real, h.best_le, ?_⟩
  rw [List.map_append, List.sum_append, List.map_singleton, hcount]
  intro hfits
  obtain ⟨hexpanded, hbest⟩ := h.uncut hfits
  refine ⟨hexpanded, List.forall_mem_append.mpr ⟨hbest, List.forall_mem_singleton.mpr ?_⟩⟩
  exact fun path hpath => absurd hinside hpath.not_mem

/-- A new target brings the paths that go on from it. -/
theorem Tried.extend {inner : DepthSearch} (h : Tried graph room onPath node expanded tried search)
    (hnode : node ∉ onPath) (hedge : graph.Edge node target) (hnew : target ∉ onPath.insert node)
    (hinner : Finds graph room (onPath.insert node) target search.expanded inner) :
    Tried graph room onPath node expanded (tried ++ [target])
      ⟨max search.best (1 + inner.best), inner.expanded⟩ := by
  have hcount : routesThrough graph room (onPath.insert node) target =
      (routesFrom graph room (onPath.insert node) target).length :=
    if_neg (mt Std.TreeSet.contains_iff_mem.mp hnew)
  refine ⟨?_, ?_, ?_⟩
  · obtain ⟨path, hpath, hlength⟩ := hinner.real
    rcases Nat.le_total (1 + inner.best) search.best with hle | hle
    · rw [Nat.max_eq_left hle]
      exact h.real
    · rw [Nat.max_eq_right hle]
      refine ⟨target :: path, isSimpleOutside_cons.mpr ⟨hnode, hedge, hpath⟩, ?_⟩
      rw [List.length_cons, hlength, Nat.add_comm]
  · have hroom := hinner.best_le
    exact Nat.max_le.mpr ⟨h.best_le, by omega⟩
  · rw [List.map_append, List.sum_append, List.map_singleton, List.sum_cons, List.sum_nil, hcount]
    intro hfits
    -- the count fits for the targets before, and what they leave of it fits for this one
    obtain ⟨hexpanded, hbest⟩ := h.uncut (by omega)
    obtain ⟨hexpandedInner, hbestInner⟩ := hinner.uncut (by omega)
    refine ⟨?_, List.forall_mem_append.mpr ⟨?_, List.forall_mem_singleton.mpr ?_⟩⟩
    · show inner.expanded = _
      omega
    · intro other hother path hpath hlength
      exact Nat.le_trans (hbest other hother path hpath hlength) (Nat.le_max_left _ _)
    · intro path hpath hlength
      have hlonger := hbestInner path hpath hlength
      show path.length + 1 ≤ max search.best (1 + inner.best)
      omega

theorem Tried.follow (h : Tried graph room onPath node expanded tried search)
    (hnode : node ∉ onPath) (hedge : graph.Edge node target) (hdepth : target ∉ onPath.insert node →
      Finds graph room (onPath.insert node) target search.expanded (depth target search.expanded)) :
    Tried graph room onPath node expanded (tried ++ [target])
      (DepthSearch.follow depth (onPath.insert node) search target) := by
  by_cases hinside : target ∈ onPath.insert node
  · rw [follow_of_mem hinside]
    exact h.pass hinside
  · rw [follow_of_not_mem hinside]
    exact h.extend hnode hedge hinside (hdepth hinside)

theorem Tried.foldl {targets : List String} (h : Tried graph room onPath node expanded tried search)
    (hnode : node ∉ onPath) (htargets : ∀ target ∈ targets, graph.Edge node target)
    (hdepth : ∀ target ∉ onPath.insert node, ∀ expanded,
      Finds graph room (onPath.insert node) target expanded (depth target expanded)) :
    Tried graph room onPath node expanded (tried ++ targets)
      (targets.foldl (DepthSearch.follow depth (onPath.insert node)) search) := by
  induction targets generalizing tried search with
  | nil =>
      rw [List.append_nil]
      exact h
  | cons target rest ih =>
      obtain ⟨htarget, hrest⟩ := List.forall_mem_cons.mp htargets
      rw [List.append_cons, List.foldl_cons]
      exact ih (h.follow hnode htarget fun hnew => hdepth target hnew _) hrest

theorem finds_depthFrom (hnode : node ∉ onPath) :
    Finds graph room onPath node expanded (depthFrom graph room onPath node expanded) := by
  induction room generalizing onPath node expanded with
  | zero =>
      refine ⟨⟨[], isSimpleOutside_nil.mpr hnode, rfl⟩, Nat.le_refl 0, fun _ => ⟨rfl, ?_⟩⟩
      exact fun path _ hlength => hlength
  | succ room ih =>
      rw [depthFrom]
      split
      · next hfull =>
          refine ⟨⟨[], isSimpleOutside_nil.mpr hnode, rfl⟩, Nat.zero_le _, fun hfits => ?_⟩
          rw [length_routesFrom_succ] at hfits
          omega
      · have htried : Tried graph room onPath node expanded (graph.targets node)
            ((graph.targets node).foldl
              (DepthSearch.follow (depthFrom graph room (onPath.insert node)) (onPath.insert node))
              ⟨0, expanded + 1⟩) :=
          (tried_nil hnode).foldl hnode
            (fun target htarget => htarget) fun target htarget expanded => ih htarget
        refine ⟨htried.real, htried.best_le, ?_⟩
        rw [length_routesFrom_succ, ← Nat.add_assoc]
        intro hfits
        obtain ⟨hexpanded, hbest⟩ := htried.uncut hfits
        refine ⟨hexpanded, fun path hpath hlength => ?_⟩
        cases path with
        | nil => exact Nat.zero_le _
        | cons target rest =>
            obtain ⟨_, hedge, hrest⟩ := isSimpleOutside_cons.mp hpath
            exact hbest target hedge rest hrest (Nat.le_of_succ_le_succ hlength)

end DepthSearch

namespace Adjacency

/-! ## Depth -/

theorem depth_of_isEmpty {graph : Adjacency} (h : graph.isEmpty = true) : graph.depth = 0 := by
  have hkeys : graph.keys = [] := by
    rw [← List.isEmpty_iff, Std.TreeMap.isEmpty_keys, h]
  rw [depth, hkeys]
  rfl

theorem isGreatest_depth {graph : Adjacency} (h : graph.isEmpty = false) :
    IsGreatest (graph.depthOf '' {node | node ∈ graph}) graph.depth := by
  have hmax : (graph.keys.map graph.depthOf).max? = some graph.depth := by
    rw [← Std.TreeMap.isEmpty_keys] at h
    rw [depth]
    cases hkeys : graph.keys with
    | nil =>
        rw [hkeys] at h
        contradiction
    | cons first rest => rw [List.map_cons, List.max?_cons', List.foldl_cons, Nat.zero_max]
  obtain ⟨hmem, hle⟩ := List.max?_eq_some_iff.mp hmax
  refine ⟨?_, ?_⟩
  · obtain ⟨node, hnode, heq⟩ := List.mem_map.mp hmem
    exact ⟨node, Std.TreeMap.mem_keys.mp hnode, heq⟩
  · rintro _ ⟨node, hnode, rfl⟩
    exact hle _ (List.mem_map_of_mem (Std.TreeMap.mem_keys.mpr hnode))

/-- The depth of a node is the length of a simple path from it, within the bound on depth.  It is
the greatest such length if neither bound cuts the search short: if the simple paths, counted as
often as targets are listed, are no more than the nodes a search may enter, and none is too long.
The depth of a graph is the greatest depth of a node with an entry. -/
theorem depth_is_longest (graph : Adjacency) :
    (∀ node, graph.depthOf node ∈ List.length '' {path | graph.IsSimplePath node path} ∧
      graph.depthOf node ≤ maxDepth ∧
      ((graph.simpleRoutes node).encard ≤ maxNodes →
        (∀ path, graph.IsSimplePath node path → path.length ≤ maxDepth) →
        IsGreatest (List.length '' {path | graph.IsSimplePath node path}) (graph.depthOf node))) ∧
    (graph.isEmpty = true → graph.depth = 0) ∧
    (graph.isEmpty = false → IsGreatest (graph.depthOf '' {node | node ∈ graph}) graph.depth) := by
  refine ⟨fun node => ?_, depth_of_isEmpty, isGreatest_depth⟩
  have hfinds : DepthSearch.Finds graph maxDepth {} node 0 (depthFrom graph maxDepth {} node 0) :=
    DepthSearch.finds_depthFrom Std.TreeSet.not_mem_emptyc
  have hreal : graph.depthOf node ∈ List.length '' {path | graph.IsSimplePath node path} := by
    obtain ⟨path, hpath, hlength⟩ := hfinds.real
    exact ⟨path, hpath.toIsSimplePath, hlength⟩
  refine ⟨hreal, hfinds.best_le, fun hfew hshort => ⟨hreal, ?_⟩⟩
  rintro _ ⟨path, hpath, rfl⟩
  have hfits : 0 + (routesFrom graph maxDepth {} node).length ≤ maxNodes := by
    rw [Nat.zero_add]
    exact_mod_cast (length_routesFrom_le graph maxDepth node).trans hfew
  exact (hfinds.uncut hfits).2 path (isSimpleOutside_empty.mpr hpath) (hshort path hpath)

/-- A target that is listed twice, a circle, and a target without an entry. -/
def braidedGraph : Adjacency :=
  .ofList [("a", ["b", "b", "a"]), ("b", ["a", "c"]), ("c", ["b", "d"])]

theorem depth_is_longest_braidedGraph :
    (braidedGraph.simpleRoutes "a").encard ≤ maxNodes ∧
    (∀ path, braidedGraph.IsSimplePath "a" path → path.length ≤ maxDepth) ∧
    IsGreatest (List.length '' {path | braidedGraph.IsSimplePath "a" path}) 3 ∧
    braidedGraph.isEmpty = false ∧
    IsGreatest (braidedGraph.depthOf '' {node | node ∈ braidedGraph}) 3 ∧
    (∅ : Adjacency).isEmpty = true ∧ (∅ : Adjacency).depth = 0 := by
  have hcount : (routesFrom braidedGraph (braidedGraph.nodes.card + 1) {} "a").length ≤
      maxNodes := by decide +kernel
  have hfew : (braidedGraph.simpleRoutes "a").encard ≤ maxNodes :=
    (encard_simpleRoutes_le braidedGraph "a").trans (by exact_mod_cast hcount)
  have hshort : ∀ path, braidedGraph.IsSimplePath "a" path → path.length ≤ maxDepth :=
    fun path hpath => hpath.length_le.trans (by decide +kernel)
  have hnonempty : braidedGraph.isEmpty = false := by decide +kernel
  have hdepthOf : braidedGraph.depthOf "a" = 3 := by decide +kernel
  have hdepth : braidedGraph.depth = 3 := by decide +kernel
  obtain ⟨hnodes, _, hkeys⟩ := depth_is_longest braidedGraph
  have hempty : (∅ : Adjacency).isEmpty = true := by decide
  refine ⟨hfew, hshort, ?_, hnonempty, ?_, hempty, (depth_is_longest ∅).2.1 hempty⟩
  · rw [← hdepthOf]
    exact (hnodes "a").2.2 hfew hshort
  · rw [← hdepth]
    exact hkeys hnonempty

end Adjacency
end Graph
end CodeSurvey
