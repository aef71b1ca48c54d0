import CodeSurvey.Graph.Adjacency

/-
The longest path from a node on which no node comes twice.
-/

namespace CodeSurvey
namespace Graph

/-- The longest path found so far, and how many nodes were entered. -/
structure DepthSearch where
  best : Nat
  expanded : Nat
  deriving Repr, DecidableEq, Inhabited

namespace DepthSearch

/-- Takes an edge to `target` into account, unless it leads back to the path; `depth` is the
longest path from a node. -/
def follow (depth : String → Nat → DepthSearch) (onPath : Std.TreeSet String) (search : DepthSearch)
    (target : String) : DepthSearch :=
  if onPath.contains target then search
  else
    let inner := depth target search.expanded
    ⟨max search.best (1 + inner.best), inner.expanded⟩

end DepthSearch

/-- The longest path from a node that avoids `onPath`, with room for that many nodes. -/
def depthFrom (graph : Adjacency) : Nat → Std.TreeSet String → String → Nat → DepthSearch
  | 0, _, _, expanded => ⟨0, expanded⟩
  | room + 1, onPath, node, expanded =>
    if maxNodes ≤ expanded then ⟨0, expanded⟩
    else
      (graph.targets node).foldl
        (DepthSearch.follow (depthFrom graph room (onPath.insert node)) (onPath.insert node))
        ⟨0, expanded + 1⟩

def Adjacency.depthOf (graph : Adjacency) (node : String) : Nat :=
  (depthFrom graph maxDepth {} node 0).best

/-- The longest path from any node that has an entry. -/
def Adjacency.depth (graph : Adjacency) : Nat :=
  (graph.keys.map graph.depthOf).foldl max 0

end Graph
end CodeSurvey
