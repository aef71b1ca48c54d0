/-
Values of a TOML document, and the rules by which its tables may be extended.
-/

namespace CodeSurvey
namespace Toml

/-- How a table came to be. -/
inductive TableSort where
  /-- by a header of its own -/
  | header
  /-- as a step on the way to another table -/
  | implicit
  /-- by a dotted key -/
  | dotted
  deriving Repr, DecidableEq, Inhabited

inductive Value where
  | string (text : String)
  | integer (value : Int)
  | float (text : String)
  | boolean (value : Bool)
  | dateTime (text : String)
  | array (elements : List Value)
  /-- an inline table, which cannot be extended -/
  | inline (entries : List (String × Value))
  | table (sort : TableSort) (entries : List (String × Value))
  /-- the tables of an array of tables, latest first -/
  | tables (elements : List (List (String × Value)))
  deriving Repr, Inhabited

/-- Keys with their values, in the order of the document. -/
abbrev Entries := List (String × Value)

namespace Entries

def get? (entries : Entries) (key : String) : Option Value :=
  (entries.find? (·.1 == key)).map (·.2)

/-- Replaces the value of a key, or adds the key at the end. -/
def put (key : String) (value : Value) : Entries → Entries
  | [] => [(key, value)]
  | (name, old) :: rest =>
      if name == key then (name, value) :: rest else (name, old) :: put key value rest

/-- Changes the table at a path that a header names, making the tables on the way. -/
def alterAt (change : Entries → Option Entries) : List String → Entries → Option Entries
  | [], entries => change entries
  | key :: path, entries =>
    match entries.get? key with
    | none => (alterAt change path []).map fun inner => entries.put key (.table .implicit inner)
    | some (.table sort inner) =>
      (alterAt change path inner).map fun inner => entries.put key (.table sort inner)
    | some (.tables (last :: before)) =>
      (alterAt change path last).map fun last => entries.put key (.tables (last :: before))
    | some _ => none

/-- Opens the table of a header: no other header may have opened it. -/
def openTable (key : String) (entries : Entries) : Option Entries :=
  match entries.get? key with
  | none => some (entries.put key (.table .header []))
  | some (.table .implicit inner) => some (entries.put key (.table .header inner))
  | some _ => none

/-- Adds a table to an array of tables. -/
def appendTable (key : String) (entries : Entries) : Option Entries :=
  match entries.get? key with
  | none => some (entries.put key (.tables [[]]))
  | some (.tables elements) => some (entries.put key (.tables ([] :: elements)))
  | some _ => none

/-- Sets a dotted key.  The table that gets the value must have come to be by dotted keys, unless
there is no dot; `isDotted` says so of the table at hand. -/
def setDotted (value : Value) (key : String) (isDotted : Bool) :
    List String → Entries → Option Entries
  | [], entries =>
    if isDotted && (entries.get? key).isNone then some (entries.put key value) else none
  | step :: path, entries =>
    match entries.get? step with
    | none =>
      (setDotted value key true path []).map fun inner => entries.put step (.table .dotted inner)
    | some (.table .dotted inner) =>
      (setDotted value key true path inner).map fun inner => entries.put step (.table .dotted inner)
    | some (.table .implicit inner) =>
      (setDotted value key false path inner).map fun inner =>
        entries.put step (.table .implicit inner)
    | some (.tables (last :: before)) =>
      (setDotted value key false path last).map fun last =>
        entries.put step (.tables (last :: before))
    | some _ => none

/-- Sets a key, possibly a dotted one, of a table. -/
def set (path : List String) (key : String) (value : Value) (entries : Entries) : Option Entries :=
  setDotted value key true path entries

end Entries
end Toml
end CodeSurvey
