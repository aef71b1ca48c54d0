import CodeSurvey.Text.Split

/-
Text with colours, for terminals.
-/

namespace CodeSurvey
namespace CommandLine

inductive Color where
  | red
  | green
  | yellow
  | blue
  | cyan
  deriving Repr, DecidableEq, Inhabited

def Color.code : Color → Nat
  | red => 31
  | green => 32
  | yellow => 33
  | blue => 34
  | cyan => 36

structure Style where
  bold : Bool := false
  dimmed : Bool := false
  color : Option Color := none
  deriving Repr, DecidableEq, Inhabited

namespace Style

def codes (style : Style) : List Nat :=
  (if style.bold then [1] else []) ++ (if style.dimmed then [2] else [])
    ++ (style.color.map Color.code).toList

/-- The sequence that turns the style on. -/
def opening (style : Style) : String :=
  "\x1b[" ++ String.intercalate ";" (style.codes.map toString) ++ "m"

/-- The sequence that turns every style off. -/
def closing : String := "\x1b[0m"

/-- Text in a style, if colours are on.  Where the text itself turns styles off, this one
is turned on again. -/
def paint (colors : Bool) (style : Style) (text : String) : String :=
  if ! colors || style.codes.isEmpty then text
  else
    let pieces := (Text.splitOn closing.toList text.toList).map String.ofList
    style.opening ++ String.intercalate (closing ++ style.opening) pieces ++ closing

def heading : Style := { bold := true, color := some .cyan }

def strong : Style := { bold := true }

def faint : Style := { dimmed := true }

def warning : Style := { bold := true, color := some .yellow }

def alarm : Style := { color := some .red }

def keyword : Style := { color := some .blue }

end Style
end CommandLine
end CodeSurvey
