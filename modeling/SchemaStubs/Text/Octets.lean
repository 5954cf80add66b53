import SchemaStubs.Text.DocComment

/-!
Texts given by their bytes. An escape can name any byte, so a text that was written with escapes
need not be UTF-8: it is a row of characters with stray bytes between them. Bytes are also written in
base 64: four characters stand for three bytes, the last group is filled up with equals signs, and
line ends do not count.
-/

namespace SchemaStubs.Text

inductive Piece where
  | char (c : Char)
  | stray (byte : UInt8)
  deriving DecidableEq, Repr, Inhabited

def utf8 (c : Char) : List UInt8 :=
  String.utf8EncodeChar c

def continuation? (byte : UInt8) : Option Nat :=
  if 0x80 ≤ byte.toNat && byte.toNat < 0xC0 then some (byte.toNat - 0x80) else none

/-- How many bytes follow the first byte of a character, what that byte adds to the code point, and
the least code point of that length. -/
def leadByte? (byte : UInt8) : Option (Nat × Nat × Nat) :=
  let value := byte.toNat
  if value < 0x80 then some (0, value, 0)
  else if value < 0xC0 then none
  else if value < 0xE0 then some (1, value - 0xC0, 0x80)
  else if value < 0xF0 then some (2, value - 0xE0, 0x800)
  else if value < 0xF8 then some (3, value - 0xF0, 0x10000)
  else none

def firstChar? : List UInt8 → Option (Char × Nat)
  | [] => none
  | first :: rest => do
      let (count, start, least) ← leadByte? first
      if rest.length < count then none
      let code ← (rest.take count).foldlM (fun code byte =>
        (continuation? byte).map (code * 64 + ·)) start
      if least ≤ code && code.isValidChar then some (Char.ofNat code, count + 1) else none

/-- The first argument bounds the number of bytes. -/
def piecesWithin : Nat → List UInt8 → List Piece
  | 0, _ => []
  | _, [] => []
  | bound + 1, byte :: rest =>
      match firstChar? (byte :: rest) with
      | some (c, count) => .char c :: piecesWithin bound ((byte :: rest).drop count)
      | none => .stray byte :: piecesWithin bound rest

def pieces (bytes : List UInt8) : List Piece :=
  piecesWithin bytes.length bytes

def piecesOf (text : List Char) : List Piece :=
  text.map .char

namespace Piece

def isBlank : Piece → Bool
  | char c => Text.isBlank c
  | stray _ => false

def char? : Piece → Option Char
  | char c => some c
  | stray _ => none

/-- The character that is shown for a piece: a stray byte has none of its own. -/
def shown : Piece → Char
  | char c => c
  | stray _ => Char.ofNat 0xFFFD

end Piece

def trimPieces (text : List Piece) : List Piece :=
  ((text.dropWhile Piece.isBlank).reverse.dropWhile Piece.isBlank).reverse

def base64Digit (c : Char) : Option Nat :=
  let code := c.toNat
  if 65 ≤ code && code ≤ 90 then some (code - 65)
  else if 97 ≤ code && code ≤ 122 then some (code - 71)
  else if 48 ≤ code && code ≤ 57 then some (code + 4)
  else if c == '+' then some 62
  else if c == '/' then some 63
  else none

def base64Value (digits : List Char) : Option Nat :=
  digits.foldlM (fun value c => (base64Digit c).map (value * 64 + ·)) 0

def lastBytes : Nat → Nat → List UInt8
  | 0, _ => []
  | count + 1, value => lastBytes count (value / 256) ++ [UInt8.ofNat value]

def base64Groups : List Char → Option (List UInt8)
  | [] => some []
  | [a, b, '=', '='] => (base64Value [a, b]).map fun value => lastBytes 1 (value / 16)
  | [a, b, c, '='] => (base64Value [a, b, c]).map fun value => lastBytes 2 (value / 4)
  | a :: b :: c :: d :: rest => do
      let value ← base64Value [a, b, c, d]
      let more ← base64Groups rest
      some (lastBytes 3 value ++ more)
  | _ => none

def base64Bytes (text : String) : Option (List UInt8) :=
  base64Groups (text.toList.filter fun c => c != '\n' && c != '\r')

end SchemaStubs.Text
