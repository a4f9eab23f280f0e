/-!
Natural numbers in decimal: digits without a leading zero, and the numbers they stand for.
-/

namespace Rebalance.Decimal

def isDigit (c : Char) : Bool := '0' ≤ c && c ≤ '9'

def digitValue (c : Char) : Nat := c.toNat - 48

def digits (n : Nat) : List Char := Nat.toDigits 10 n

def extend (n : Nat) (digits : List Char) : Nat :=
  digits.foldl (fun value c => 10 * value + digitValue c) n

def value? (chars : List Char) : Option Nat :=
  if !chars.isEmpty && chars.all isDigit then some (extend 0 chars) else none

def hasLeadingZero : List Char → Bool
  | '0' :: _ :: _ => true
  | _ => false

def read? (chars : List Char) : Option Nat :=
  if hasLeadingZero chars then none else value? chars

def integer (n : Int) : List Char :=
  if n < 0 then '-' :: digits n.natAbs else digits n.natAbs

end Rebalance.Decimal
