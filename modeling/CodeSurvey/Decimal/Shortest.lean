import CodeSurvey.Decimal.Fixed

/-
The fewest decimal digits that read back as a given floating-point number.
-/

namespace CodeSurvey
namespace Decimal

/-- `0.d₁d₂… · 10 ^ point` for digits `d₁d₂…`. -/
structure Digits where
  digits : Nat
  point : Int
  deriving Repr, DecidableEq, Inhabited

/-- The numbers that read back as one, in a unit that makes their ends whole: `value` between `low`
and `high`, where `unit` units are one. -/
structure Interval where
  low : Nat
  value : Nat
  high : Nat
  unit : Nat
  /-- whether the ends belong to it -/
  isClosed : Bool
  deriving Repr, DecidableEq, Inhabited

/-- The interval around `mantissa · 2 ^ exponent`.  Below a power of two the
neighbours are closer. -/
def Interval.ofParts (mantissa : Nat) (exponent : Int) : Interval :=
  let scale := Nat.pow 2 exponent.toNat
  let below := if mantissa = Nat.pow 2 52 && -1074 < exponent then scale else 2 * scale
  { low := 4 * mantissa * scale - below
    value := 4 * mantissa * scale
    high := 4 * mantissa * scale + 2 * scale
    unit := 4 * Nat.pow 2 (-exponent).toNat
    isClosed := mantissa % 2 == 0 }

namespace Interval

/-- Whether `count · 10 ^ power` lies in the interval. -/
def contains (i : Interval) (count : Nat) (power : Int) : Bool :=
  let x := count * Nat.pow 10 power.toNat * i.unit
  let factor := Nat.pow 10 (-power).toNat
  if i.isClosed then i.low * factor ≤ x && x ≤ i.high * factor
  else i.low * factor < x && x < i.high * factor

/-- How many times `10 ^ power` goes into the value, and whether the next count is nearer; of two
counts that are equally near, the even one. -/
def nearest (i : Interval) (power : Int) : Nat × Nat :=
  let numerator := i.value * Nat.pow 10 (-power).toNat
  let denominator := i.unit * Nat.pow 10 power.toNat
  (numerator / denominator, roundDiv numerator denominator)

/-- The count of `10 ^ power` that reads back as the value: the nearest, or else
the other neighbour. -/
def count? (i : Interval) (power : Int) : Option Nat :=
  let (floor, nearest) := i.nearest power
  let other := if nearest = floor then floor + 1 else floor
  if i.contains nearest power then some nearest
  else if i.contains other power then some other
  else none

/-- The power of ten that is just above the value. -/
def magnitude (i : Interval) : Int :=
  let whole := i.value / i.unit
  if whole = 0 then
    let places := ((List.range 400).find? fun places => i.unit ≤ i.value * Nat.pow 10 places).getD 0
    1 - places
  else ((toString whole).length : Int)

/-- The first count of digits, from `digits` on, that suffices. -/
def search (i : Interval) (magnitude : Int) (digits : Nat) : Nat → Digits
  | 0 => ⟨(i.nearest (magnitude - digits)).2, magnitude⟩
  | limit + 1 =>
    match i.count? (magnitude - digits) with
    | some count => ⟨count, if count = Nat.pow 10 digits then magnitude + 1 else magnitude⟩
    | none => search i magnitude (digits + 1) limit

end Interval

/-- The digits without zeros at their end. -/
def dropZeros : List Char → List Char := fun digits =>
  (digits.reverse.dropWhile (· == '0')).reverse

def zeros (n : Nat) : String := "".pushn '0' n

/-- Numbers from `10 ^ -5` to `10 ^ 16` are written with a point, others with an exponent. -/
def layout (digits : String) (point : Int) : String :=
  let length : Int := digits.length
  if length ≤ point && point ≤ 16 then digits ++ zeros (point - length).toNat ++ ".0"
  else if 0 < point && point ≤ 16 then
    String.ofList (digits.toList.take point.toNat) ++ "."
      ++ String.ofList (digits.toList.drop point.toNat)
  else if -5 < point && point ≤ 0 then "0." ++ zeros (-point).toNat ++ digits
  else
    let rest := String.ofList (digits.toList.drop 1)
    String.ofList (digits.toList.take 1) ++ (if rest.isEmpty then "" else "." ++ rest)
      ++ "e" ++ toString (point - 1)

/-- The shortest text of a number; none for what is not finite. -/
def shortest? (x : Float) : Option String :=
  match Parts.ofFloat x with
  | .nan | .infinite _ => none
  | .finite negative mantissa exponent =>
    let sign := if negative then "-" else ""
    if mantissa = 0 then some (sign ++ "0.0")
    else
      let interval := Interval.ofParts mantissa exponent
      let found := interval.search interval.magnitude 1 17
      some (sign ++ layout (String.ofList (dropZeros (toString found.digits).toList)) found.point)

end Decimal
end CodeSurvey
