import Rebalance.Json.Token

/-!
JSON values and the one that a row of tokens stands for. What is open at a place is kept in a
list of frames, so that values may nest to any depth.
-/

namespace Rebalance.Json

inductive Value
  | word (word : Word)
  | number (integer : Option Int)
  | text (raw : List Char)
  | array (items : List Value)
  /-- Fields in order, names as they stand between their quotes. -/
  | object (fields : List (List Char × Value))
deriving Inhabited

/-- An array or object whose end has not been read; what it holds so far is newest first. -/
inductive Frame
  | array (items : List Value)
  /-- With the name whose value is being read. -/
  | object (fields : List (List Char × Value)) (name : List Char)
deriving Inhabited

/-- Whether a value is to be read next or has just been read. -/
inductive Progress
  | awaiting
  | finished (value : Value)
deriving Inhabited

def build : Progress → List Frame → List Token → Option (Value × List Token)
  | .finished value, [], tokens => some (value, tokens)
  | .finished value, .array items :: frames, .comma :: tokens =>
    build .awaiting (.array (value :: items) :: frames) tokens
  | .finished value, .array items :: frames, .closing .square :: tokens =>
    build (.finished (.array (value :: items).reverse)) frames tokens
  | .finished value, .object fields name :: frames, .comma :: .text next :: .colon :: tokens =>
    build .awaiting (.object ((name, value) :: fields) next :: frames) tokens
  | .finished value, .object fields name :: frames, .closing .curly :: tokens =>
    build (.finished (.object ((name, value) :: fields).reverse)) frames tokens
  | .awaiting, frames, .opening .square :: .closing .square :: tokens =>
    build (.finished (.array [])) frames tokens
  | .awaiting, frames, .opening .square :: tokens => build .awaiting (.array [] :: frames) tokens
  | .awaiting, frames, .opening .curly :: .closing .curly :: tokens =>
    build (.finished (.object [])) frames tokens
  | .awaiting, frames, .opening .curly :: .text name :: .colon :: tokens =>
    build .awaiting (.object [] name :: frames) tokens
  | .awaiting, frames, .word word :: tokens => build (.finished (.word word)) frames tokens
  | .awaiting, frames, .number integer :: tokens =>
    build (.finished (.number integer)) frames tokens
  | .awaiting, frames, .text raw :: tokens => build (.finished (.text raw)) frames tokens
  | _, _, _ => none

def parse (chars : List Char) : Option Value :=
  match scan chars with
  | some tokens =>
    match build .awaiting [] tokens with
    | some (value, []) => some value
    | _ => none
  | none => none

end Rebalance.Json
