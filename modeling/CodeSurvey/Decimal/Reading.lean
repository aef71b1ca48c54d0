/-
Reading decimal numbers.
-/

namespace CodeSurvey
namespace Decimal

def ofDigits (digits : List Char) : Nat :=
  digits.foldl (fun value c => 10 * value + (c.toNat - '0'.toNat)) 0

/-- Whether a minus sign stands in front, and what follows the sign. -/
def splitSign : List Char → Bool × List Char
  | '-' :: rest => (true, rest)
  | '+' :: rest => (false, rest)
  | text => (false, text)

/-- A natural number that fits in a word; a plus sign may stand in front. -/
def natural? (text : List Char) : Option Nat :=
  let digits := if text.head? == some '+' then text.drop 1 else text
  if digits.isEmpty || ! digits.all Char.isDigit then none
  else if ofDigits digits < Nat.pow 2 64 then some (ofDigits digits) else none

/-- An exponent: a letter, a sign if there is one, and digits. -/
def exponent? : List Char → Option Int
  | [] => some 0
  | c :: rest =>
    let (negative, digits) := splitSign rest
    if c.toLower != 'e' || digits.isEmpty || ! digits.all Char.isDigit then none
    else some (if negative then - (ofDigits digits : Int) else ofDigits digits)

/-- `digits · 10 ^ exponent`, where numbers too large to be finite or too small to differ from
zero need no power. -/
def scientific (digits : List Char) (exponent : Int) : Float :=
  let mantissa := ofDigits digits
  let magnitude := exponent + digits.length
  if mantissa = 0 || magnitude < -400 then 0.0
  else if exponent < 0 then Float.ofScientific mantissa true exponent.natAbs
  else if 400 < exponent then 1.0 / 0.0
  else Float.ofScientific mantissa false exponent.natAbs

/-- A number without its sign: digits with a point among them, or at one end, and an exponent. -/
def unsigned? (text : List Char) : Option Float :=
  let whole := text.takeWhile Char.isDigit
  let afterWhole := text.drop whole.length
  let fraction :=
    if afterWhole.head? == some '.' then (afterWhole.drop 1).takeWhile Char.isDigit else []
  let rest :=
    if afterWhole.head? == some '.' then afterWhole.drop (1 + fraction.length) else afterWhole
  if whole.isEmpty && fraction.isEmpty then none
  else (exponent? rest).map fun exponent =>
    scientific (whole ++ fraction) (exponent - fraction.length)

/-- A floating-point number; infinities and what is no number go by their names in either case. -/
def real? (text : List Char) : Option Float :=
  let (negative, rest) := splitSign text
  let value := match String.ofList (rest.map Char.toLower) with
    | "inf" | "infinity" => some (1.0 / 0.0)
    | "nan" => some (0.0 / 0.0)
    | _ => unsigned? rest
  value.map fun x => if negative then -x else x

end Decimal
end CodeSurvey
