import Rebalance.Decimal.Natural

/-!
The fewest decimal digits that read back as a given binary64 number, and of those the ones
nearest to it. All of it is exact arithmetic on naturals.
-/

namespace Rebalance.Decimal

structure Ratio where
  numerator : Nat
  denominator : Nat
deriving Inhabited

def Ratio.scaleTwo (numerator : Nat) (exponent : Int) : Ratio :=
  if 0 ≤ exponent then ⟨numerator * Nat.pow 2 exponent.toNat, 1⟩
  else ⟨numerator, Nat.pow 2 (-exponent).toNat⟩

/-- The numbers that round to one binary64 number, in quarters of its last place. -/
structure RoundingInterval where
  low : Nat
  middle : Nat
  high : Nat
  /-- The exponent of two that scales all three. -/
  exponent : Int
  /-- Whether the ends belong to the interval. -/
  closed : Bool
deriving Inhabited

/-- The interval of a positive finite number, given its bits without the sign. Below a power
of two the next number is half as far away as above it. -/
def RoundingInterval.ofBits (bits : Nat) : RoundingInterval :=
  let field := bits / Nat.pow 2 52
  let fraction := bits % Nat.pow 2 52
  let mantissa := if field = 0 then fraction else fraction + Nat.pow 2 52
  let middle := 4 * mantissa
  { low := if fraction = 0 && 1 < field then middle - 1 else middle - 2
    middle
    high := middle + 2
    exponent := (max field 1 : Nat) - (1077 : Int)
    closed := mantissa % 2 = 0 }

structure DecimalForm where
  digits : Nat
  exponent : Int
deriving DecidableEq, Inhabited

namespace RoundingInterval

/-- The scale that brings three ends and a power of ten to integers: the ends are multiplied
by the numerator, and candidates by the denominator. -/
def scale (interval : RoundingInterval) (place : Int) : Ratio :=
  let two := Ratio.scaleTwo 1 interval.exponent
  if 0 ≤ place then ⟨two.numerator, two.denominator * Nat.pow 10 place.toNat⟩
  else ⟨two.numerator * Nat.pow 10 (-place).toNat, two.denominator⟩

def holds (interval : RoundingInterval) (scale : Ratio) (candidate : Nat) : Bool :=
  let low := interval.low * scale.numerator
  let high := interval.high * scale.numerator
  let value := candidate * scale.denominator
  if interval.closed then low ≤ value && value ≤ high else low < value && value < high

/-- The multiple of `10 ^ place` in the interval that is nearest to its middle, if there is one;
of two equally near the larger. -/
def nearest (interval : RoundingInterval) (place : Int) : Option DecimalForm :=
  let scale := interval.scale place
  let middle := interval.middle * scale.numerator
  let below := middle / scale.denominator
  let rest := middle % scale.denominator
  let lowHolds := interval.holds scale below && below != 0
  let highHolds := interval.holds scale (below + 1)
  if lowHolds && (!highHolds || 2 * rest < scale.denominator) then some ⟨below, place⟩
  else if highHolds then some ⟨below + 1, place⟩
  else none

def search (interval : RoundingInterval) : Nat → Int → DecimalForm
  | 0, place => ⟨interval.middle, place⟩
  | fuel + 1, place =>
    match interval.nearest place with
    | some form => form
    | none => search interval fuel (place - 1)

def topPlace (interval : RoundingInterval) : Int :=
  let high := Ratio.scaleTwo interval.high interval.exponent
  ((digits high.numerator).length : Int) - ((digits high.denominator).length : Int) + 1

def shortest (interval : RoundingInterval) : DecimalForm := interval.search 25 interval.topPlace

end RoundingInterval

/-- Digits in positional notation, without an exponent and without a fraction that is zero. -/
def DecimalForm.positional (form : DecimalForm) : List Char :=
  let row := Decimal.digits form.digits
  if 0 ≤ form.exponent then row ++ List.replicate form.exponent.toNat '0'
  else
    let places := (-form.exponent).toNat
    let padded := List.replicate (places + 1 - row.length) '0' ++ row
    padded.take (padded.length - places) ++ '.' :: padded.drop (padded.length - places)

def float (x : Float) : String :=
  let bits := x.toBits.toNat
  let sign := if bits < Nat.pow 2 63 then "" else "-"
  let magnitude := bits % Nat.pow 2 63
  let top := 2047 * Nat.pow 2 52
  if top < magnitude then "NaN"
  else if magnitude = top then sign ++ "inf"
  else if magnitude = 0 then sign ++ "0"
  else sign ++ String.ofList (RoundingInterval.ofBits magnitude).shortest.positional

end Rebalance.Decimal
