import CodeSurvey.Decimal.Reading
import CodeSurvey.Text.Split
import CodeSurvey.Toml.Table

/-
Numbers, dates and times of TOML, each the whole of a word, and the texts between quotes.
-/

namespace CodeSurvey
namespace Toml

open Text

def isHexDigit (c : Char) : Bool := c.isDigit || ('a' ≤ c && c ≤ 'f') || ('A' ≤ c && c ≤ 'F')

def isOctalDigit (c : Char) : Bool := '0' ≤ c && c ≤ '7'

def isBinaryDigit (c : Char) : Bool := c == '0' || c == '1'

def digitValue (c : Char) : Nat :=
  if c.isDigit then c.toNat - 48 else if 'a' ≤ c then c.toNat - 87 else c.toNat - 55

/-- The digits of a number without the underscores that may stand between two of them. -/
def digits (p : Char → Bool) : List Char → Option (List Char)
  | [] => none
  | [c] => if p c then some [c] else none
  | c :: '_' :: rest => if p c then (digits p rest).map (c :: ·) else none
  | c :: rest => if p c then (digits p rest).map (c :: ·) else none

def ofDigits (base : Nat) (digits : List Char) : Nat :=
  digits.foldl (fun n c => n * base + digitValue c) 0

/-- Decimal digits that do not begin with a zero, unless it is the only one. -/
def wholeDigits (text : List Char) : Option (List Char) :=
  match text with
  | '0' :: _ :: _ => none
  | _ => digits Char.isDigit text

/-- Integers are between -2^63 and 2^63 - 1. -/
def inRange (n : Int) : Option Int :=
  if -(Nat.pow 2 63 : Int) ≤ n && n < (Nat.pow 2 63 : Int) then some n else none

def integer? (text : List Char) : Option Int :=
  match text with
  | '0' :: 'x' :: rest => (digits isHexDigit rest).bind fun d => inRange (ofDigits 16 d)
  | '0' :: 'o' :: rest => (digits isOctalDigit rest).bind fun d => inRange (ofDigits 8 d)
  | '0' :: 'b' :: rest => (digits isBinaryDigit rest).bind fun d => inRange (ofDigits 2 d)
  | _ =>
    let (negative, rest) := Decimal.splitSign text
    (wholeDigits rest).bind fun d =>
      inRange (if negative then -(ofDigits 10 d : Int) else ofDigits 10 d)

/-- Whether `digits * 10 ^ exponent` is too large for a float. -/
def overflows (digits : List Char) (exponent : Int) : Bool :=
  let significant := digits.dropWhile (· == '0')
  let size : Int := significant.length + exponent
  if significant.isEmpty || size < 300 then false
  else if 320 < size then true
  else
    let value := ofDigits 10 significant * Nat.pow 10 exponent.toNat / Nat.pow 10 (-exponent).toNat
    Nat.pow 2 1024 - Nat.pow 2 970 ≤ value

/-- The exponent of a float, which is 0 if none is written. -/
def exponent? : Option (List Char) → Option Int
  | none => some 0
  | some text =>
    let (negative, rest) := Decimal.splitSign text
    (digits Char.isDigit rest).map fun d =>
      if negative then -(ofDigits 10 d : Int) else ofDigits 10 d

/-- Whether the text is a float; one that is too large is none unless it is negative. -/
def isFloat (text : List Char) : Bool :=
  let (negative, rest) := Decimal.splitSign text
  if rest = "inf".toList || rest = "nan".toList then true
  else
    let mantissa := upTo (fun c => c == 'e' || c == 'E') rest
    let power :=
      if mantissa.length = rest.length then none else some (rest.drop (mantissa.length + 1))
    let whole := upTo (· == '.') mantissa
    let fraction :=
      if whole.length = mantissa.length then none else some (mantissa.drop (whole.length + 1))
    match wholeDigits whole, exponent? power with
    | some w, some e =>
      match fraction with
      | none => power.isSome && (negative || ! overflows w e)
      | some f =>
        match digits Char.isDigit f with
        | some f => negative || ! overflows (w ++ f) (e - f.length)
        | none => false
    | _, _ => false

/-- A number of exactly two digits between the given bounds. -/
def twoDigits (low high : Nat) (text : List Char) : Option Nat :=
  if text.length = 2 && text.all Char.isDigit then
    let n := ofDigits 10 text
    if low ≤ n && n ≤ high then some n else none
  else none

def daysIn (year month : Nat) : Nat :=
  if month = 2 then
    if year % 4 = 0 && (year % 100 ≠ 0 || year % 400 = 0) then 29 else 28
  else if [4, 6, 9, 11].contains month then 30 else 31

def isDate (text : List Char) : Bool :=
  match splitWhere (· == '-') text with
  | [year, month, day] =>
    year.length = 4 && year.all Char.isDigit &&
      match twoDigits 1 12 month with
      | some m => (twoDigits 1 (daysIn (ofDigits 10 year) m) day).isSome
      | none => false
  | _ => false

def isSecond (text : List Char) : Bool :=
  let whole := upTo (· == '.') text
  (twoDigits 0 60 whole).isSome &&
    (whole.length = text.length
      || (whole.length + 1 < text.length && (text.drop (whole.length + 1)).all Char.isDigit))

def isTime (text : List Char) : Bool :=
  match splitWhere (· == ':') text with
  | [hour, minute, second] =>
    (twoDigits 0 23 hour).isSome && (twoDigits 0 59 minute).isSome && isSecond second
  | _ => false

def isOffset (text : List Char) : Bool :=
  match splitWhere (· == ':') text with
  | [hour, minute] => (twoDigits 0 23 hour).isSome && (twoDigits 0 59 minute).isSome
  | _ => false

/-- A time with or without an offset. -/
def isOffsetTime (text : List Char) : Bool :=
  let time := upTo (fun c => c == 'Z' || c == 'z' || c == '+' || c == '-') text
  isTime time &&
    match text.drop time.length with
    | [] => true
    | c :: rest => if c == 'Z' || c == 'z' then rest.isEmpty else isOffset rest

def isDateTime (text : List Char) : Bool :=
  let date := upTo (fun c => c == 'T' || c == 't' || c == ' ') text
  isDate date &&
    match text.drop date.length with
    | [] => true
    | _ :: time => isOffsetTime time

/-- The value that a word stands for. -/
def wordValue (word : List Char) : Option Value :=
  if word = "true".toList then some (.boolean true)
  else if word = "false".toList then some (.boolean false)
  else if isDateTime word || isTime word then some (.dateTime (String.ofList word))
  else if isFloat word then some (.float (String.ofList word))
  else (integer? word).map .integer

/-- The characters that may stand in a comment or between quotes. -/
def isPlain (c : Char) : Bool := c == '\t' || (0x20 ≤ c.toNat && c.toNat ≠ 0x7F)

def escapeOf (c : Char) : Option Char :=
  match c with
  | 'b' => some '\x08'
  | 't' => some '\t'
  | 'n' => some '\n'
  | 'f' => some '\x0c'
  | 'r' => some '\r'
  | '"' => some '"'
  | '\\' => some '\\'
  | _ => none

/-- The character with the given hexadecimal code point. -/
def charOfHex (digits : List Char) : Option Char :=
  if digits.all isHexDigit then
    let n := ofDigits 16 digits
    if n < 0xD800 || (0xDFFF < n && n < 0x110000) then some (Char.ofNat n) else none
  else none

/-- The text up to the closing quote, and what is left. -/
abbrev Quoted := Option (List Char × List Char)

def Quoted.cons (c : Char) (rest : Quoted) : Quoted :=
  rest.map fun (text, left) => (c :: text, left)

/-- A character, if it is one, before the rest. -/
def Quoted.consSome (c : Option Char) (rest : Quoted) : Quoted := c.bind fun c => rest.cons c

/-- The text after a double quote. -/
def basicString : List Char → Quoted
  | [] => none
  | '"' :: rest => some ([], rest)
  | '\\' :: 'u' :: a :: b :: c :: d :: rest =>
    Quoted.consSome (charOfHex [a, b, c, d]) (basicString rest)
  | '\\' :: 'U' :: a :: b :: c :: d :: e :: f :: g :: h :: rest =>
    Quoted.consSome (charOfHex [a, b, c, d, e, f, g, h]) (basicString rest)
  | '\\' :: c :: rest => Quoted.consSome (escapeOf c) (basicString rest)
  | c :: rest => if c != '\\' && isPlain c then (basicString rest).cons c else none

/-- The text after a single quote. -/
def literalString : List Char → Quoted
  | [] => none
  | '\'' :: rest => some ([], rest)
  | c :: rest => if isPlain c then (literalString rest).cons c else none

def isWs (c : Char) : Bool := c == ' ' || c == '\t'

def startsLine : List Char → Bool
  | '\n' :: _ => true
  | '\r' :: '\n' :: _ => true
  | _ => false

/-- The text after three double quotes.  A backslash before the end of a line joins the lines:
blanks are skipped while `skipping`. -/
def longBasicString (skipping : Bool) : List Char → Quoted
  | [] => none
  | '"' :: '"' :: '"' :: '"' :: '"' :: rest => some (['"', '"'], rest)
  | '"' :: '"' :: '"' :: '"' :: rest => some (['"'], rest)
  | '"' :: '"' :: '"' :: rest => some ([], rest)
  | '\r' :: '\n' :: rest =>
    if skipping then longBasicString true rest else (longBasicString false rest).cons '\n'
  | '\n' :: rest =>
    if skipping then longBasicString true rest else (longBasicString false rest).cons '\n'
  | '\\' :: 'u' :: a :: b :: c :: d :: rest =>
    Quoted.consSome (charOfHex [a, b, c, d]) (longBasicString false rest)
  | '\\' :: 'U' :: a :: b :: c :: d :: e :: f :: g :: h :: rest =>
    Quoted.consSome (charOfHex [a, b, c, d, e, f, g, h]) (longBasicString false rest)
  | '\\' :: c :: rest =>
    if startsLine ((c :: rest).dropWhile isWs) then longBasicString true (c :: rest)
    else Quoted.consSome (escapeOf c) (longBasicString false rest)
  | c :: rest =>
    if skipping && isWs c then longBasicString true rest
    else if c != '\\' && isPlain c then (longBasicString false rest).cons c
    else none

/-- The text after three single quotes. -/
def longLiteralString : List Char → Quoted
  | [] => none
  | '\'' :: '\'' :: '\'' :: '\'' :: '\'' :: rest => some (['\'', '\''], rest)
  | '\'' :: '\'' :: '\'' :: '\'' :: rest => some (['\''], rest)
  | '\'' :: '\'' :: '\'' :: rest => some ([], rest)
  | '\r' :: '\n' :: rest => (longLiteralString rest).cons '\n'
  | '\n' :: rest => (longLiteralString rest).cons '\n'
  | c :: rest => if isPlain c then (longLiteralString rest).cons c else none

/-- The end of the line right after the opening quotes does not belong to the text. -/
def skipLineEnd : List Char → List Char
  | '\n' :: rest => rest
  | '\r' :: '\n' :: rest => rest
  | text => text

/-- A text in quotes of any sort. -/
def quoted : List Char → Quoted
  | '"' :: '"' :: '"' :: rest => longBasicString false (skipLineEnd rest)
  | '\'' :: '\'' :: '\'' :: rest => longLiteralString (skipLineEnd rest)
  | '"' :: rest => basicString rest
  | '\'' :: rest => literalString rest
  | _ => none

end Toml
end CodeSurvey
