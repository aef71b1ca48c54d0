import CodeSurvey.Text.Blank

/-
Cutting text at characters or at a fixed separator, and searching for a fixed part.
-/

namespace CodeSurvey
namespace Text

/-- Cuts at every character that satisfies `p`; `n` cuts give `n + 1` pieces,
empty ones included. -/
def splitWhere (p : Char → Bool) : List Char → List (List Char)
  | [] => [[]]
  | c :: rest =>
    if p c then [] :: splitWhere p rest
    else match splitWhere p rest with
      | [] => [[c]]
      | piece :: pieces => (c :: piece) :: pieces

theorem splitWhere_ne_nil {p : Char → Bool} (text : List Char) : splitWhere p text ≠ [] := by
  cases text with
  | nil => simp [splitWhere]
  | cons c rest =>
      rw [splitWhere]
      split
      · simp
      · split <;> simp

/-- The text up to the first character that satisfies `p`. -/
def upTo (p : Char → Bool) (text : List Char) : List Char := text.takeWhile (! p ·)

/-- The maximal runs of characters that are not blank. -/
def words (text : List Char) : List (List Char) :=
  (splitWhere isBlank text).filter (! ·.isEmpty)

/-- The text before and after the first occurrence of `separator`. -/
def breakOn (separator : List Char) : List Char → Option (List Char × List Char)
  | [] => if separator.isEmpty then some ([], []) else none
  | c :: rest =>
    if separator.isPrefixOf (c :: rest) then some ([], (c :: rest).drop separator.length)
    else (breakOn separator rest).map fun (before, after) => (c :: before, after)

/-- The text after the last occurrence of `separator`, or all of it if there is none. -/
def afterLast (separator text : List Char) : List Char :=
  match breakOn separator.reverse text.reverse with
  | some (last, _) => last.reverse
  | none => text

theorem breakOn_length {separator text before after : List Char}
    (found : breakOn separator text = some (before, after)) :
    before.length + separator.length + after.length = text.length := by
  induction text generalizing before with
  | nil =>
    simp only [breakOn] at found
    split at found
    · next empty =>
      simp only [Option.some.injEq, Prod.mk.injEq] at found
      obtain ⟨rfl, rfl⟩ := found
      simp [List.isEmpty_iff.mp empty]
    · cases found
  | cons c rest ih =>
    simp only [breakOn] at found
    split at found
    · next starts =>
      simp only [Option.some.injEq, Prod.mk.injEq] at found
      obtain ⟨rfl, rfl⟩ := found
      have start := List.isPrefixOf_iff_prefix.mp starts
      have := start.length_le
      simp only [List.length_nil, List.length_drop]
      omega
    · obtain ⟨⟨before', after'⟩, inner, same⟩ := Option.map_eq_some_iff.mp found
      simp only [Prod.mk.injEq] at same
      obtain ⟨rfl, rfl⟩ := same
      have := ih inner
      simp only [List.length_cons]
      omega

/-- Cuts at every occurrence of `separator`, leftmost first.  An empty separator cuts nothing. -/
def splitOn (separator text : List Char) : List (List Char) :=
  if _nonempty : separator.length = 0 then [text]
  else match _found : breakOn separator text with
    | none => [text]
    | some (before, after) => before :: splitOn separator after
termination_by text.length
decreasing_by
  have := breakOn_length _found
  omega

/-- Whether `part` occurs in the text. -/
def contains (part text : List Char) : Bool := (breakOn part text).isSome

/-- The number of characters before the first occurrence of `part`. -/
def find (part text : List Char) : Option Nat :=
  (breakOn part text).map fun (before, _) => before.length

/-- The text after `start`, if it begins with it. -/
def stripStart (start text : List Char) : Option (List Char) :=
  if start.isPrefixOf text then some (text.drop start.length) else none

/-- Drops every leading repetition of `start`. -/
def dropRepeats (start text : List Char) : List Char :=
  if _shorter : start.length ≠ 0 ∧ start.isPrefixOf text then
    dropRepeats start (text.drop start.length)
  else text
termination_by text.length
decreasing_by
  have begins := List.isPrefixOf_iff_prefix.mp _shorter.2
  have := begins.length_le
  have := _shorter.1
  rw [List.length_drop]
  omega

/-- Whether the text ends with `last`. -/
def endsWith (last text : List Char) : Bool := last.isSuffixOf text

end Text
end CodeSurvey
