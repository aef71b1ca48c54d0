import CodeSurvey.Graph.Adjacency

/-
Looking for cycles by depth-first search.  Each search from a root reports at most one cycle, and no
node is entered twice, so the cycles that are reported have no node in common.
-/

namespace CodeSurvey
namespace Graph

structure Search where
  visited : Std.TreeSet String
  /-- the nodes of the path -/
  onPath : Std.TreeSet String
  /-- the nodes from the latest back to the root -/
  path : List String
  cycles : List (List String)
  rootHasCycle : Bool
  /-- how many nodes were entered -/
  expanded : Nat

namespace Search

def start : Search := ⟨{}, {}, [], [], false, 0⟩

def enter (search : Search) (node : String) : Search :=
  { search with
    visited := search.visited.insert node
    onPath := search.onPath.insert node
    path := node :: search.path
    expanded := search.expanded + 1 }

def leave (search : Search) (node : String) : Search :=
  { search with onPath := search.onPath.erase node, path := search.path.drop 1 }

/-- The cycle that an edge from the end of the path back to `node` closes. -/
def closedCycle (path : List String) (node : String) : List String :=
  node :: (path.takeWhile (· != node)).reverse ++ [node]

/-- Records a cycle unless the root has one. -/
def record (search : Search) (node : String) : Search :=
  if search.rootHasCycle then search
  else
    { search with
      cycles := search.cycles ++ [closedCycle search.path node]
      rootHasCycle := true }

/-- Follows an edge to `target`; `visit` goes on from a node that was not visited. -/
def follow (visit : String → Search → Search) (node : String) (search : Search) (target : String) :
    Search :=
  if target == node then search
  else if ! search.visited.contains target then visit target search
  else if search.onPath.contains target then search.record target
  else search

/-- Searches from a node with room for that many nodes on the path. -/
def visit (graph : Adjacency) : Nat → String → Search → Search
  | 0, _, search => search
  | room + 1, node, search =>
    if maxNodes ≤ search.expanded then search
    else
      ((graph.sortedTargets node).foldl (follow (visit graph room) node)
        (search.enter node)).leave node

/-- Searches from a root, unless it was visited or too many nodes were. -/
def visitRoot (graph : Adjacency) (search : Search) (root : String) : Search :=
  if search.visited.contains root || maxNodes ≤ search.expanded then search
  else visit graph maxDepth root { search with rootHasCycle := false }

end Search

/-- Cycles of at least two nodes, each from one of its nodes around to that node again. -/
def Adjacency.cycles (graph : Adjacency) : List (List String) :=
  (graph.keys.foldl (Search.visitRoot graph) Search.start).cycles

end Graph
end CodeSurvey
