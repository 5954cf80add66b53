import SchemaStubs.Decimal.Double

/-!
The shortest decimal that reads back as a given number. The decimals that read back lie between the
middles to the two neighbours of the number; of the grids of decimals with one digit, two digits and
so on, the first that has a point there gives the digits, and of two points the nearer, or the even
one if they are equally near.
-/

namespace SchemaStubs.Decimal

structure Scaled where
  coefficient : Nat
  power : Int
  deriving DecidableEq, Repr, Inhabited

namespace Scaled

def text (decimal : Scaled) : String :=
  let digits := (toString decimal.coefficient).toList
  if 0 ≤ decimal.power then
    String.ofList (if decimal.coefficient = 0 then digits
      else digits ++ List.replicate decimal.power.toNat '0')
  else
    let count := decimal.power.natAbs
    let padded := List.replicate (count + 1 - digits.length) '0' ++ digits
    let whole := padded.take (padded.length - count)
    let places := (padded.drop (padded.length - count)).reverse.dropWhile fun c => c == '0'
    String.ofList (if places.isEmpty then whole else whole ++ '.' :: places.reverse)

end Scaled

namespace Binary

/-- The middles to the neighbours below and above, in quarters of the last place. Below a power of
two the numbers lie closer together. -/
def middles (number : Binary) : Nat × Nat :=
  let quarters := 4 * number.significand
  let isPower := number.significand = Nat.pow 2 (precision - 1) && leastExponent < number.exponent
  (if isPower then quarters - 1 else quarters - 2, quarters + 2)

def quartersOver (number : Binary) (quarters : Nat) : Nat × Nat :=
  (quarters * Nat.pow 2 number.exponent.toNat, 4 * Nat.pow 2 (-number.exponent).toNat)

/-- Whether a decimal reads back as the number: a middle itself goes to the even significand. -/
def readsBack (number : Binary) (decimal : Scaled) : Bool :=
  let (low, high) := number.middles
  let denominator := (number.quartersOver 0).2 * Nat.pow 10 decimal.power.toNat
  let point := decimal.coefficient * denominator
  let scale := Nat.pow 10 (-decimal.power).toNat
  let lowPoint := (number.quartersOver low).1 * scale
  let highPoint := (number.quartersOver high).1 * scale
  if number.significand % 2 = 0 then lowPoint ≤ point && point ≤ highPoint
  else lowPoint < point && point < highPoint

/-- The power of ten of the first digit of a fraction. The first argument bounds how small it is. -/
def magnitudeOf : Nat → Nat → Nat → Int
  | 0, _, _ => 0
  | bound + 1, numerator, denominator =>
      if denominator ≤ numerator then (digitCount (numerator / denominator) : Int) - 1
      else magnitudeOf bound (numerator * 10) denominator - 1

/-- The two decimals with that last place next to the number, the nearer first; of two that are
equally near, the even one first. -/
def neighbours (number : Binary) (power : Int) : List Scaled :=
  let (numerator, denominator) := number.fraction
  let above := numerator * Nat.pow 10 (-power).toNat
  let below := denominator * Nat.pow 10 power.toNat
  let floor := above / below
  let near : Scaled := ⟨floor, power⟩
  let far : Scaled := ⟨floor + 1, power⟩
  if roundHalfEven above below = floor then [near, far] else [far, near]

/-- The first grid from `digits` digits on that has a decimal which reads back; seventeen digits are
always enough. -/
def search (number : Binary) (magnitude : Int) : Nat → Nat → Scaled
  | 0, digits => (number.neighbours (magnitude - digits + 1)).headD ⟨0, 0⟩
  | grids + 1, digits =>
      match (number.neighbours (magnitude - digits + 1)).find? number.readsBack with
      | some decimal => decimal
      | none => search number magnitude grids (digits + 1)

def shortest (number : Binary) : Scaled :=
  if number.significand = 0 then ⟨0, 0⟩
  else
    let (numerator, denominator) := number.fraction
    number.search (magnitudeOf 400 numerator denominator) 17 1

end Binary

namespace Double

def text : Double → String
  | finite negative magnitude => (if negative then "-" else "") ++ magnitude.shortest.text
  | infinite negative => if negative then "-Inf" else "+Inf"
  | undefined => "NaN"

end Double

end SchemaStubs.Decimal
