import Rebalance.Json.Value

/-!
The characters that a JSON string stands for, and the string that is written for them.
-/

namespace Rebalance.Json

def hexValue (c : Char) : Nat :=
  if c ≤ '9' then c.toNat - 48 else if c ≤ 'F' then c.toNat - 55 else c.toNat - 87

def hexUnit (a b c d : Char) : Nat :=
  ((hexValue a * 16 + hexValue b) * 16 + hexValue c) * 16 + hexValue d

def isHighSurrogate (unit : Nat) : Bool := 0xD800 ≤ unit && unit < 0xDC00

def isLowSurrogate (unit : Nat) : Bool := 0xDC00 ≤ unit && unit < 0xE000

def escaped : Char → Char
  | 'b' => '\x08'
  | 'f' => '\x0c'
  | 'n' => '\n'
  | 'r' => '\r'
  | 't' => '\t'
  | c => c

/-- The characters of a string between quotes; none where it names half of a surrogate pair.
`done` holds what was read, newest first. -/
def unescapeOnto (done : List Char) : List Char → Option (List Char)
  | [] => some done.reverse
  | '\\' :: 'u' :: a :: b :: c :: d :: rest =>
    let unit := hexUnit a b c d
    if isLowSurrogate unit then none
    else if isHighSurrogate unit then
      match rest with
      | '\\' :: 'u' :: e :: f :: g :: h :: rest =>
        let low := hexUnit e f g h
        if isLowSurrogate low then
          unescapeOnto (Char.ofNat (0x10000 + (unit - 0xD800) * 0x400 + (low - 0xDC00)) :: done)
            rest
        else none
      | _ => none
    else unescapeOnto (Char.ofNat unit :: done) rest
  | '\\' :: c :: rest => unescapeOnto (escaped c :: done) rest
  | c :: rest => unescapeOnto (c :: done) rest

def unescape (raw : List Char) : Option (List Char) := unescapeOnto [] raw

def hexDigit (n : Nat) : Char := Char.ofNat (if n < 10 then 48 + n else 87 + n)

def escapeChar (c : Char) : List Char :=
  match c with
  | '"' => ['\\', '"']
  | '\\' => ['\\', '\\']
  | '\x08' => ['\\', 'b']
  | '\t' => ['\\', 't']
  | '\n' => ['\\', 'n']
  | '\x0c' => ['\\', 'f']
  | '\r' => ['\\', 'r']
  | c =>
    if c.toNat < 32 then ['\\', 'u', '0', '0', hexDigit (c.toNat / 16), hexDigit (c.toNat % 16)]
    else [c]

def escape (chars : List Char) : List Char := chars.flatMap escapeChar

namespace Value

def word? : Value → Option Nat
  | .number (some n) => if 0 ≤ n && n < Int.pow 2 64 then some n.toNat else none
  | _ => none

def signedWord? : Value → Option Int
  | .number (some n) => if -(Int.pow 2 63) ≤ n && n < Int.pow 2 63 then some n else none
  | _ => none

def bool? : Value → Option Bool
  | .word .true => some true
  | .word .false => some false
  | _ => none

def string? : Value → Option String
  | .text raw => (unescape raw).map String.ofList
  | _ => none

def items? : Value → Option (List Value)
  | .array items => some items
  | _ => none

end Value

end Rebalance.Json
