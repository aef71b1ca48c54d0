import Std.Data.TreeMap
import Std.Data.TreeSet

/-
Directed graphs of named nodes, and the bounds of a search in them.
-/

namespace CodeSurvey
namespace Graph

/-- The targets of each node that has an entry, in the order in which they were added. -/
abbrev Adjacency := Std.TreeMap String (List String)

/-- How many nodes a path of a search may have. -/
def maxDepth : Nat := 1000

/-- How many nodes a search may enter. -/
def maxNodes : Nat := 10000

namespace Adjacency

def targets (graph : Adjacency) (node : String) : List String := graph.getD node []

/-- The targets of a node in order, each once. -/
def sortedTargets (graph : Adjacency) (node : String) : List String :=
  (Std.TreeSet.ofList (graph.targets node)).toList

/-- Adds an edge, unless it is there already. -/
def addEdge (graph : Adjacency) (node target : String) : Adjacency :=
  graph.alter node fun
    | none => some [target]
    | some targets => some (if targets.contains target then targets else targets ++ [target])

end Adjacency
end Graph
end CodeSurvey
