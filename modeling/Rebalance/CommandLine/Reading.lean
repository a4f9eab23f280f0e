import Rebalance.Config
import Rebalance.Decimal.Natural
import Rebalance.Ident
import Rebalance.Text.Blank

/-!
The texts that stand for numbers and durations on the command line.
-/

namespace Rebalance.CommandLine

inductive Refusal
  /-- It is not understood. -/
  | usage
  /-- It is understood, but asks for more than there is room for. -/
  | overflow
deriving DecidableEq, Inhabited

def Refusal.exitCode : Refusal → Nat
  | .usage => 2
  | .overflow => 101

def understood {β : Type} : Option β → Except Refusal β
  | some value => .ok value
  | none => .error .usage

/-- A number up to `most`; a plus sign and leading zeros are allowed. -/
def readNatural (most : Nat) (chars : List Char) : Option Nat :=
  let digits := match chars with
    | '+' :: rest => rest
    | _ => chars
  (Decimal.value? digits).bind fun n => if n ≤ most then some n else none

def readSigned (most : Nat) (chars : List Char) : Option Nat :=
  match chars with
  | '-' :: digits => (Decimal.value? digits).bind fun n => if n = 0 then some 0 else none
  | _ => readNatural most chars

def splitSign (chars : List Char) : Bool × List Char :=
  match chars with
  | '-' :: rest => (true, rest)
  | '+' :: rest => (false, rest)
  | _ => (false, chars)

/-- `mantissa * 10 ^ exponent`, rounded once. Far beyond the range of binary64 no power is
computed. -/
def nearestFloat (mantissa : Nat) (exponent : Int) : Float :=
  let magnitude : Int := (Decimal.digits mantissa).length + exponent
  if mantissa = 0 || magnitude < -400 then 0.0
  else if 400 < magnitude then 1.0 / 0.0
  else if 0 ≤ exponent then Float.ofScientific mantissa false exponent.toNat
  else Float.ofScientific mantissa true (-exponent).toNat

/-- The exponent after a mantissa; zero where the text ends. -/
def readExponent (chars : List Char) : Option Int :=
  match chars with
  | [] => some 0
  | c :: rest =>
    if c = 'e' || c = 'E' then
      let (negative, digits) := splitSign rest
      (Decimal.value? digits).map fun n => if negative then -(n : Int) else n
    else none

def readMagnitude (chars : List Char) : Option Float :=
  let whole := chars.takeWhile Decimal.isDigit
  let afterWhole := chars.dropWhile Decimal.isDigit
  let (fraction, rest) := match afterWhole with
    | '.' :: rest => (rest.takeWhile Decimal.isDigit, rest.dropWhile Decimal.isDigit)
    | _ => ([], afterWhole)
  match Decimal.value? (whole ++ fraction), readExponent rest with
  | some mantissa, some exponent => some (nearestFloat mantissa (exponent - fraction.length))
  | _, _ => none

/-- A number in decimal or exponential notation, an infinity or a not-a-number, in any case. -/
def readFloat (chars : List Char) : Option Float :=
  let (negative, rest) := splitSign chars
  let lower := String.ofList (rest.map Char.toLower)
  let magnitude :=
    if lower = "inf" || lower = "infinity" then some (1.0 / 0.0)
    else if lower = "nan" then some (0.0 / 0.0)
    else readMagnitude rest
  magnitude.map fun x => if negative then -x else x

structure Span where
  seconds : Nat := 0
  nanos : Nat := 0

def unitNanos (name : String) : Option Nat :=
  let second := Config.second
  if ["nanos", "nsec", "ns"].contains name then some 1
  else if ["usec", "us", "µs"].contains name then some 1000
  else if ["millis", "msec", "ms"].contains name then some 1000000
  else if ["seconds", "second", "secs", "sec", "s"].contains name then some second
  else if ["minutes", "minute", "min", "mins", "m"].contains name then some (60 * second)
  else if ["hours", "hour", "hr", "hrs", "h"].contains name then some (3600 * second)
  else if ["days", "day", "d"].contains name then some (86400 * second)
  else if ["weeks", "week", "wk", "wks", "w"].contains name then some (604800 * second)
  else if ["months", "month", "M"].contains name then some (2630016 * second)
  else if ["years", "year", "yr", "yrs", "y"].contains name then some (31557600 * second)
  else none

def isUnitChar (c : Char) : Bool := ('a' ≤ c && c ≤ 'z') || ('A' ≤ c && c ≤ 'Z') || c = 'µ'

namespace Span

/-- Adds whole units; seconds and nanoseconds each stay within a word. A single second of
nanoseconds is carried only when the sum is put together, where there is no way back if the
seconds are at their last. -/
def addUnits (span : Span) (count unit : Nat) : Except Refusal Span :=
  let (seconds, nanos) :=
    if unit < Config.second then (0, count * unit) else (count * (unit / Config.second), 0)
  let seconds := span.seconds + seconds
  let nanos := span.nanos + nanos
  let carried := seconds + nanos / Config.second
  if wordMax < seconds || wordMax < nanos then .error .usage
  else if carried ≤ wordMax then .ok { seconds := carried, nanos := nanos % Config.second }
  else .error (if nanos = Config.second then .overflow else .usage)

/-- The grain in which a share of a unit is counted: seconds from an hour on. -/
def grainOf (unit : Nat) : Nat :=
  if unit < 3600 * Config.second then 1 else Config.second

/-- Adds a share of a unit, which has to be a whole number of grains. A nanosecond has no
shares. -/
def addShare (span : Span) (numerator denominator unit : Nat) : Except Refusal Span :=
  if denominator = 1 then .ok span
  else
    let grain := grainOf unit
    let scaled := numerator * (unit / grain)
    if unit = 1 || wordMax < scaled || scaled % denominator ≠ 0 then .error .usage
    else span.addUnits (scaled / denominator) grain

def total (span : Span) : Nat := span.seconds * Config.second + span.nanos

end Span

def readCount (n : Nat) : List Char → Option (Nat × List Char)
  | [] => none
  | c :: rest =>
    if Decimal.isDigit c then
      let n := 10 * n + Decimal.digitValue c
      if n ≤ wordMax then readCount n rest else none
    else if isBlank c then readCount n rest
    else if isUnitChar c || c = '.' then some (n, c :: rest)
    else none

def readShare (numerator denominator : Nat) : List Char → Option (Nat × Nat × List Char)
  | [] => none
  | c :: rest =>
    if Decimal.isDigit c then
      let numerator := 10 * numerator + Decimal.digitValue c
      let denominator := 10 * denominator
      if denominator ≤ wordMax then readShare numerator denominator rest else none
    else if isBlank c then readShare numerator denominator rest
    else if isUnitChar c && 1 < denominator then some (numerator, denominator, c :: rest)
    else none

/-- The fraction after a count; a denominator of one where there is none. -/
def readFraction (chars : List Char) : Option (Nat × Nat × List Char) :=
  match chars with
  | '.' :: rest => readShare 0 1 rest
  | _ => some (0, 1, chars)

/-- The unit that comes first, and what follows it: a digit, a blank or nothing. -/
def readUnit (chars : List Char) : Option (Nat × List Char) :=
  let rest := chars.dropWhile isUnitChar
  if (rest.take 1).all fun c => Decimal.isDigit c || isBlank c then
    (unitNanos (String.ofList (chars.takeWhile isUnitChar))).map fun unit => (unit, rest)
  else none

/-- Reads counts with their units and adds them up, in at most `fuel` pairs. A digit may follow
a unit directly. -/
def readSpans : Nat → Span → List Char → Except Refusal Span
  | 0, _, _ => .error .usage
  | fuel + 1, span, chars =>
    match chars.dropWhile isBlank with
    | [] => .ok span
    | c :: rest =>
      if Decimal.isDigit c then do
        let (count, rest) ← understood (readCount (Decimal.digitValue c) rest)
        let (numerator, denominator, rest) ← understood (readFraction rest)
        let (unit, rest) ← understood (readUnit rest)
        let span ← span.addUnits count unit
        let span ← span.addShare numerator denominator unit
        readSpans fuel span rest
      else .error .usage

/-- A duration such as `1h 30m` or `250ms`, in nanoseconds. A lone zero needs no unit. -/
def readDuration (chars : List Char) : Except Refusal Nat :=
  if chars = ['0'] then .ok 0
  else if chars.all isBlank then .error .usage
  else (readSpans (chars.length + 1) {} chars).map Span.total

end Rebalance.CommandLine
