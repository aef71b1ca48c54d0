import CodeSurvey.Decimal.Shortest
import CodeSurvey.Json.Value

/-
JSON as text, one member or element on a line.
-/

namespace CodeSurvey
namespace Json

def hexDigits (n : Nat) : String :=
  Decimal.padLeft 4 '0' (String.ofList (Nat.toDigits 16 n))

/-- How a character is written between quotes. -/
def escape (c : Char) : String :=
  match c with
  | '"' => "\\\""
  | '\\' => "\\\\"
  | '\n' => "\\n"
  | '\r' => "\\r"
  | '\t' => "\\t"
  | '\x08' => "\\b"
  | '\x0c' => "\\f"
  | c => if c.toNat < 0x20 then "\\u" ++ hexDigits c.toNat else c.toString

def quote (text : String) : String := "\"" ++ String.join (text.toList.map escape) ++ "\""

/-- A line at the given depth. -/
def lineAt (depth : Nat) : String := "\n" ++ "".pushn ' ' (2 * depth)

/-- Items between brackets, each on a line of its own. -/
def enclose (opening closing : String) (depth : Nat) (items : List String) : String :=
  if items.isEmpty then opening ++ closing
  else
    opening ++ lineAt (depth + 1) ++ String.intercalate ("," ++ lineAt (depth + 1)) items
      ++ lineAt depth ++ closing

mutual

/-- The text of a value at the given depth.  Numbers that are not finite have none. -/
def textAt (depth : Nat) : Json → String
  | null => "null"
  | bool value => if value then "true" else "false"
  | natural value => toString value
  | real value => (Decimal.shortest? value).getD "null"
  | text value => quote value
  | list values => enclose "[" "]" depth (textsAt (depth + 1) values)
  | object members => enclose "\x7b" "\x7d" depth (membersAt (depth + 1) members)

def textsAt (depth : Nat) : List Json → List String
  | [] => []
  | value :: rest => textAt depth value :: textsAt depth rest

def membersAt (depth : Nat) : List (String × Json) → List String
  | [] => []
  | (key, value) :: rest => (quote key ++ ": " ++ textAt depth value) :: membersAt depth rest

end

def print (value : Json) : String := textAt 0 value

end Json
end CodeSurvey
