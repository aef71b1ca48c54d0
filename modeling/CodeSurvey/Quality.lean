import CodeSurvey.Measures

/-
The quality score of a project and its grade.
-/

namespace CodeSurvey

inductive Grade where
  | a
  | b
  | c
  | d
  | f
  deriving Repr, DecidableEq, Inhabited

namespace Grade

def label : Grade → String
  | a => "A"
  | b => "B"
  | c => "C"
  | d => "D"
  | f => "F"

/-- What is no number has the lowest grade. -/
def ofScore (score : Float) : Grade :=
  if score ≥ 90.0 then a
  else if score ≥ 80.0 then b
  else if score ≥ 70.0 then c
  else if score ≥ 60.0 then d
  else f

end Grade

structure Quality where
  score : Float
  grade : Grade
  deriving Repr, Inhabited

namespace Quality

/-- What the score is made of; all but the complexity are on a scale from 0 to 100. -/
structure Inputs where
  maintainability : Float
  averageComplexity : Float
  documentation : Float
  testCoverage : Float
  duplication : Float
  deriving Repr, Inhabited

/-- Each point of average complexity costs five. -/
def complexityScore (averageComplexity : Float) : Float :=
  clamp 0.0 100.0 (100.0 - averageComplexity * 5.0)

def ofInputs (inputs : Inputs) : Quality :=
  let score := clamp 0.0 100.0 (inputs.maintainability * 0.30
    + (100.0 - complexityScore inputs.averageComplexity) * 0.25
    + inputs.documentation * 0.20
    + inputs.testCoverage * 0.15
    + (100.0 - inputs.duplication) * 0.10)
  ⟨score, .ofScore score⟩

end Quality
end CodeSurvey
