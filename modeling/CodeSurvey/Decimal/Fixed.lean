/-
Numbers with a fixed count of decimal places.
-/

namespace CodeSurvey
namespace Decimal

/-- `num / den` rounded to the nearest integer, a half to the even neighbour. -/
def roundDiv (num den : Nat) : Nat :=
  let quotient := num / den
  let remainder := num % den
  if 2 * remainder < den then quotient
  else if 2 * remainder > den then quotient + 1
  else if quotient % 2 == 0 then quotient else quotient + 1

/-- A floating-point number taken apart: `± mantissa · 2 ^ exponent`. -/
inductive Parts where
  | nan
  | infinite (negative : Bool)
  | finite (negative : Bool) (mantissa : Nat) (exponent : Int)
  deriving Repr, DecidableEq

def Parts.ofFloat (x : Float) : Parts :=
  let bits := x.toBits.toNat
  let negative := bits / Nat.pow 2 63 == 1
  let exponent : Nat := bits / Nat.pow 2 52 % Nat.pow 2 11
  let fraction := bits % Nat.pow 2 52
  if exponent == 2047 then if fraction == 0 then .infinite negative else .nan
  else if exponent == 0 then .finite negative fraction (-1074)
  else .finite negative (fraction + Nat.pow 2 52) ((exponent : Int) - 1075)

/-- `mantissa · 2 ^ exponent · 10 ^ places` as the nearest integer. -/
def scaled (places mantissa : Nat) (exponent : Int) : Nat :=
  match exponent with
  | .ofNat e => mantissa * Nat.pow 2 e * Nat.pow 10 places
  | .negSucc e => roundDiv (mantissa * Nat.pow 10 places) (Nat.pow 2 (e + 1))

def padLeft (width : Nat) (fill : Char) (text : String) : String :=
  "".pushn fill (width - text.length) ++ text

def padRight (width : Nat) (fill : Char) (text : String) : String :=
  text.pushn fill (width - text.length)

/-- An integer count of units of `10 ^ -places`, written with a decimal point. -/
def pointed (places units : Nat) : String :=
  if places == 0 then toString units
  else toString (units / Nat.pow 10 places) ++ "." ++
    padLeft places '0' (toString (units % Nat.pow 10 places))

/-- The exact value rounded to `places` decimal places, a half to the even neighbour. -/
def fixed (places : Nat) (x : Float) : String :=
  match Parts.ofFloat x with
  | .nan => "NaN"
  | .infinite negative => if negative then "-inf" else "inf"
  | .finite negative mantissa exponent =>
    (if negative then "-" else "") ++ pointed places (scaled places mantissa exponent)

end Decimal
end CodeSurvey
