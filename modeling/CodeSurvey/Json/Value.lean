/-
JSON values.
-/

namespace CodeSurvey

inductive Json where
  | null
  | bool (value : Bool)
  | natural (value : Nat)
  | real (value : Float)
  | text (value : String)
  | list (values : List Json)
  /-- members in the order in which they are written -/
  | object (members : List (String × Json))
  deriving Repr, Inhabited

namespace Json

def texts (values : List String) : Json := .list (values.map .text)

end Json
end CodeSurvey
