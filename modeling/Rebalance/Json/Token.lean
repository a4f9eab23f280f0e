import Rebalance.Decimal.Natural

/-!
The tokens of JSON text, in its strict form: no comments, no trailing commas, no leading
zeros, no raw control characters in strings.
-/

namespace Rebalance.Json

inductive Bracket
  | square
  | curly
deriving DecidableEq, Inhabited

inductive Word
  | null
  | true
  | false
deriving DecidableEq, Inhabited

inductive Token
  | opening (bracket : Bracket)
  | closing (bracket : Bracket)
  | comma
  | colon
  | word (word : Word)
  /-- A number, with its value where it is written as an integer. -/
  | number (integer : Option Int)
  /-- A string, as it stands between its quotes. -/
  | text (raw : List Char)
deriving DecidableEq, Inhabited

def isSpace (c : Char) : Bool := c = ' ' || c = '\t' || c = '\n' || c = '\r'

def isHexDigit (c : Char) : Bool :=
  ('0' ≤ c && c ≤ '9') || ('a' ≤ c && c ≤ 'f') || ('A' ≤ c && c ≤ 'F')

def isEscapable (c : Char) : Bool := ['"', '\\', '/', 'b', 'f', 'n', 'r', 't'].contains c

def scanText (done : List Char) : List Char → Option (List Char × List Char)
  | [] => none
  | '"' :: rest => some (done.reverse, rest)
  | '\\' :: 'u' :: a :: b :: c :: d :: rest =>
    if isHexDigit a && isHexDigit b && isHexDigit c && isHexDigit d then
      scanText (d :: c :: b :: a :: 'u' :: '\\' :: done) rest
    else none
  | '\\' :: c :: rest => if isEscapable c then scanText (c :: '\\' :: done) rest else none
  | c :: rest => if c = '\\' || c.toNat < 32 then none else scanText (c :: done) rest

def skipDigits (chars : List Char) : Option (List Char) :=
  match chars with
  | [] => none
  | c :: _ => if Decimal.isDigit c then some (chars.dropWhile Decimal.isDigit) else none

def skipFraction (chars : List Char) : Option (List Char) :=
  match chars with
  | '.' :: rest => skipDigits rest
  | _ => some chars

def skipExponent (chars : List Char) : Option (List Char) :=
  match chars with
  | c :: rest =>
    if c = 'e' || c = 'E' then
      match rest with
      | '+' :: digits => skipDigits digits
      | '-' :: digits => skipDigits digits
      | digits => skipDigits digits
    else some chars
  | [] => some chars

def integerOf (negative : Bool) (magnitude : Nat) (isPlain : Bool) : Option Int :=
  if !isPlain then none
  else if negative then (if magnitude = 0 then none else some (-(magnitude : Int)))
  else some magnitude

def scanMagnitude (negative : Bool) (chars : List Char) : Option (Token × List Char) := do
  let magnitude ← Decimal.read? (chars.takeWhile Decimal.isDigit)
  let whole := chars.dropWhile Decimal.isDigit
  let fraction ← skipFraction whole
  let rest ← skipExponent fraction
  pure (.number (integerOf negative magnitude (rest.length = whole.length)), rest)

def scanToken (first : Char) (rest : List Char) : Option (Token × List Char) :=
  match first with
  | '[' => some (.opening .square, rest)
  | ']' => some (.closing .square, rest)
  | '\x7b' => some (.opening .curly, rest)
  | '\x7d' => some (.closing .curly, rest)
  | ',' => some (.comma, rest)
  | ':' => some (.colon, rest)
  | '"' => (scanText [] rest).map fun (raw, rest) => (.text raw, rest)
  | '-' => scanMagnitude true rest
  | 'n' =>
    match rest with
    | 'u' :: 'l' :: 'l' :: rest => some (.word .null, rest)
    | _ => none
  | 't' =>
    match rest with
    | 'r' :: 'u' :: 'e' :: rest => some (.word .true, rest)
    | _ => none
  | 'f' =>
    match rest with
    | 'a' :: 'l' :: 's' :: 'e' :: rest => some (.word .false, rest)
    | _ => none
  | c => if Decimal.isDigit c then scanMagnitude false (c :: rest) else none

def scanFrom : Nat → List Token → List Char → Option (List Token)
  | _, done, [] => some done.reverse
  | 0, _, _ :: _ => none
  | fuel + 1, done, c :: rest =>
    if isSpace c then scanFrom fuel done rest
    else
      match scanToken c rest with
      | some (token, rest) => scanFrom fuel (token :: done) rest
      | none => none

def scan (chars : List Char) : Option (List Token) := scanFrom chars.length [] chars

end Rebalance.Json
