/-
Sums.  Counts are added up by `List.sum`, whose zero is fixed here, so that a sum is the same term
in every module, whichever algebra that module imports.
-/

namespace CodeSurvey

instance (priority := 2000) zeroCount : Zero Nat := ⟨0⟩

/-- The sum of the values from the left, as it depends on the order. -/
def floatSum (values : List Float) : Float := values.foldl (· + ·) 0.0

end CodeSurvey
