import CodeSurvey.Sum
/-
Bytes as UTF-8 text.  One scan cuts any byte sequence into characters and maximal ill-formed pieces;
strict and forgiving decoding both read its result.
-/

namespace CodeSurvey
namespace Text
namespace Utf8

/-- What the bytes at one position hold. -/
inductive Piece where
  /-- a character and the number of bytes that encode it -/
  | char (c : Char) (size : Nat)
  /-- bytes that no continuation can complete -/
  | invalid (size : Nat)
  /-- the start of a character that the input breaks off -/
  | incomplete
  deriving Repr, DecidableEq

def isContinuation (b : UInt8) : Bool := 0x80 ≤ b && b ≤ 0xBF

/-- The bytes that may follow a lead byte of a sequence of three. -/
def secondOfThree (lead b : UInt8) : Bool :=
  if lead == 0xE0 then 0xA0 ≤ b && b ≤ 0xBF
  else if lead == 0xED then 0x80 ≤ b && b ≤ 0x9F
  else isContinuation b

/-- The bytes that may follow a lead byte of a sequence of four. -/
def secondOfFour (lead b : UInt8) : Bool :=
  if lead == 0xF0 then 0x90 ≤ b && b ≤ 0xBF
  else if lead == 0xF4 then 0x80 ≤ b && b ≤ 0x8F
  else isContinuation b

def low (b : UInt8) : Nat := b.toNat % 64

def scan : List UInt8 → List Piece
  | [] => []
  | b0 :: rest0 =>
    if b0 < 0x80 then .char (Char.ofNat b0.toNat) 1 :: scan rest0
    else if 0xC2 ≤ b0 && b0 ≤ 0xDF then
      match rest0 with
      | [] => [.incomplete]
      | b1 :: rest1 =>
        if isContinuation b1 then
          .char (Char.ofNat (b0.toNat % 32 * 64 + low b1)) 2 :: scan rest1
        else .invalid 1 :: scan (b1 :: rest1)
    else if 0xE0 ≤ b0 && b0 ≤ 0xEF then
      match rest0 with
      | [] => [.incomplete]
      | b1 :: rest1 =>
        if secondOfThree b0 b1 then
          match rest1 with
          | [] => [.incomplete]
          | b2 :: rest2 =>
            if isContinuation b2 then
              .char (Char.ofNat ((b0.toNat % 16 * 64 + low b1) * 64 + low b2)) 3 :: scan rest2
            else .invalid 2 :: scan (b2 :: rest2)
        else .invalid 1 :: scan (b1 :: rest1)
    else if 0xF0 ≤ b0 && b0 ≤ 0xF4 then
      match rest0 with
      | [] => [.incomplete]
      | b1 :: rest1 =>
        if secondOfFour b0 b1 then
          match rest1 with
          | [] => [.incomplete]
          | b2 :: rest2 =>
            if isContinuation b2 then
              match rest2 with
              | [] => [.incomplete]
              | b3 :: rest3 =>
                if isContinuation b3 then
                  .char (Char.ofNat
                    (((b0.toNat % 8 * 64 + low b1) * 64 + low b2) * 64 + low b3)) 4 :: scan rest3
                else .invalid 3 :: scan (b3 :: rest3)
            else .invalid 2 :: scan (b2 :: rest2)
        else .invalid 1 :: scan (b1 :: rest1)
    else .invalid 1 :: scan rest0

/-- Why bytes are not text: the index of the first byte that belongs to no character. -/
inductive Fault where
  | invalid (size index : Nat)
  | incomplete (index : Nat)
  deriving Repr, DecidableEq

def Fault.message : Fault → String
  | .invalid size index => s!"invalid utf-8 sequence of {size} bytes from index {index}"
  | .incomplete index => s!"incomplete utf-8 byte sequence from index {index}"

/-- The characters of the pieces, or the first ill-formed one; `index` bytes were read before. -/
def strict (index : Nat) : List Piece → Except Fault (List Char)
  | [] => .ok []
  | .char c size :: rest => (strict (index + size) rest).map (c :: ·)
  | .invalid size :: _ => .error (.invalid size index)
  | .incomplete :: _ => .error (.incomplete index)

/-- The text that the bytes encode. -/
def decode (bytes : List UInt8) : Except Fault (List Char) := strict 0 (scan bytes)

def Piece.replaced : Piece → Char
  | .char c _ => c
  | _ => Char.ofNat 0xFFFD

/-- The text with every ill-formed piece replaced by U+FFFD. -/
def decodeLossy (bytes : List UInt8) : List Char := (scan bytes).map Piece.replaced

def encode (text : List Char) : List UInt8 := text.flatMap String.utf8EncodeChar

/-- The number of bytes that encode the text. -/
def size (text : List Char) : Nat := (text.map Char.utf8Size).sum

def byteOrderMark : Char := Char.ofNat 0xFEFF

end Utf8
end Text
end CodeSurvey
