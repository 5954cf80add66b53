/-!
Numbers of 64 bits with a binary exponent, as far as reading a decimal and cutting off its fraction
need them. A decimal is rounded once, to the nearest such number, a half to the even neighbour.
-/

namespace SchemaStubs.Decimal

/-- The quotient rounded to the nearest whole number, a half to the even neighbour. -/
def roundHalfEven (numerator denominator : Nat) : Nat :=
  let quotient := numerator / denominator
  let twice := 2 * (numerator % denominator)
  if twice < denominator || (twice == denominator && quotient % 2 == 0) then quotient
  else quotient + 1

/-- The number `significand` times a power of two. -/
structure Binary where
  significand : Nat
  exponent : Int
  deriving DecidableEq, Repr, Inhabited

/-- How many bits a significand has. -/
def precision : Nat :=
  53

def leastExponent : Int :=
  -1074

def greatestExponent : Int :=
  971

def digitCount (value : Nat) : Nat :=
  (Nat.toDigits 10 value).length

namespace Binary

def scaled (numerator denominator : Nat) (exponent : Int) : Nat × Nat :=
  (numerator * Nat.pow 2 (-exponent).toNat, denominator * Nat.pow 2 exponent.toNat)

/-- A significand that rounding carried over the precision is halved. -/
def normalized (number : Binary) : Binary :=
  if number.significand = Nat.pow 2 precision then
    ⟨number.significand / 2, number.exponent + 1⟩
  else number

/-- The nearest number to a positive fraction; `none` if it is too large. -/
def ofFraction? (numerator denominator : Nat) : Option Binary :=
  let size : Int := (Nat.log2 numerator : Int) - Nat.log2 denominator
  let least := max (size - precision) leastExponent
  let (above, below) := scaled numerator denominator least
  let exponent := if above / below < Nat.pow 2 precision then least else least + 1
  let (above, below) := scaled numerator denominator exponent
  let rounded := normalized ⟨roundHalfEven above below, exponent⟩
  if rounded.exponent ≤ greatestExponent then some rounded else none

def ofDecimal? (coefficient : Nat) (power : Int) : Option Binary :=
  let size := power + digitCount coefficient
  if coefficient = 0 || size < -400 then some ⟨0, 0⟩
  else if 400 < size then none
  else ofFraction? (coefficient * Nat.pow 10 power.toNat) (Nat.pow 10 (-power).toNat)

def fraction (number : Binary) : Nat × Nat :=
  (number.significand * Nat.pow 2 number.exponent.toNat, Nat.pow 2 (-number.exponent).toNat)

def wholePart (number : Binary) : Nat :=
  number.fraction.1 / number.fraction.2

end Binary

inductive Double where
  | finite (negative : Bool) (magnitude : Binary)
  | infinite (negative : Bool)
  /-- No number. -/
  | undefined
  deriving DecidableEq, Repr, Inhabited

namespace Double

def isZero : Double → Bool
  | finite _ magnitude => magnitude.significand == 0
  | _ => false

def leastWord : Int :=
  -9223372036854775808

/-- The number without its fraction in a word of 64 bits, one of them for the sign. The least word
stands for everything that does not fit. -/
def word : Double → Int
  | finite negative magnitude =>
      let whole : Int := magnitude.wholePart
      let signed := if negative then -whole else whole
      if leastWord ≤ signed && signed < -leastWord then signed else leastWord
  | _ => leastWord

def isWithinWords : Double → Bool
  | finite negative magnitude =>
      negative || magnitude.fraction.1 ≤ magnitude.fraction.2 * (-leastWord).toNat
  | infinite negative => negative
  | undefined => false

end Double

end SchemaStubs.Decimal
