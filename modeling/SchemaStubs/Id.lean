import SchemaStubs.Text.Quoted

/-!
Identifiers of schema nodes: 64-bit numbers, written `0x` and sixteen hexadecimal digits. Zero is
the identifier of no node. A document may write an identifier in decimal or in hexadecimal of
either case, as a number or as a quoted text.
-/

namespace SchemaStubs

structure Id where
  value : UInt64
  deriving DecidableEq, Repr, Inhabited, Hashable

namespace Id

def ofNat (value : Nat) : Id :=
  ⟨UInt64.ofNat value⟩

instance (number : Nat) : OfNat Id number where
  ofNat := Id.ofNat number

instance : LT Id where
  lt first second := first.value < second.value

instance : LE Id where
  le first second := first.value ≤ second.value

instance (first second : Id) : Decidable (first < second) :=
  inferInstanceAs (Decidable (first.value < second.value))

instance (first second : Id) : Decidable (first ≤ second) :=
  inferInstanceAs (Decidable (first.value ≤ second.value))

def chars (id : Id) : List Char :=
  '0' :: 'x' :: Text.hexPadded 16 id.value.toNat

def text (id : Id) : String :=
  String.ofList id.chars

instance : ToString Id where
  toString := text

def decimalValue (c : Char) : Option Nat :=
  if 48 ≤ c.toNat && c.toNat ≤ 57 then some (c.toNat - 48) else none

/-- The number a non-empty run of digits stands for, if it fits 64 bits. -/
def numeral (base : Nat) (digit : Char → Option Nat) (digits : List Char) : Option Id := do
  if digits.isEmpty then none
  let value ← digits.foldlM (fun value c => (digit c).map (value * base + ·)) 0
  if value < UInt64.size then some (ofNat value) else none

def ofChars? : List Char → Option Id
  | '0' :: 'x' :: digits => numeral 16 Text.hexValue digits
  | '0' :: 'X' :: digits => numeral 16 Text.hexValue digits
  | digits => numeral 10 decimalValue digits

def ofText? (text : String) : Option Id :=
  ofChars? (Text.trimChars text.toList)

def ofPieces? (text : List Text.Piece) : Option Id := do
  ofChars? (← (Text.trimPieces text).mapM Text.Piece.char?)

def token (id : Id) : String :=
  Text.quote id.text

/-- The text a document token holds: a quoted token stands for its content, any other token for
itself. -/
def tokenText (token : String) : List Text.Piece :=
  (Text.unquote token).getD (Text.piecesOf token.toList)

end Id

end SchemaStubs
