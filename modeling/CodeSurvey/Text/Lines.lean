/-
Lines of a text, and the quote whose literals may go on over them.
-/

namespace CodeSurvey
namespace Text

/-- The quote of a literal that may hold anything but itself. -/
def rawQuote : Char := '\x60'

/-- Cuts at line feeds.  One carriage return before a line feed belongs to it, and a final line feed
starts no further line. -/
def lines : List Char → List (List Char)
  | [] => []
  | '\n' :: rest => [] :: lines rest
  | '\r' :: '\n' :: rest => [] :: lines rest
  | c :: rest => match lines rest with
    | [] => [[c]]
    | line :: more => (c :: line) :: more

end Text
end CodeSurvey
