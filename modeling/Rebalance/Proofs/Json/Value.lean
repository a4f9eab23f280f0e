import Rebalance.Json.Value

/-!
The tokens of a value. Reading them gives the value back, in the middle of any other and
however deep it nests.
-/

namespace Rebalance.Json

mutual

def Value.tokens : Value → List Token
  | .word word => [.word word]
  | .number integer => [.number integer]
  | .text raw => [.text raw]
  | .array [] => [.opening .square, .closing .square]
  | .array (item :: items) =>
    .opening .square :: (item.tokens ++ (laterItems items ++ [.closing .square]))
  | .object [] => [.opening .curly, .closing .curly]
  | .object ((name, value) :: fields) =>
    .opening .curly :: .text name :: .colon ::
      (value.tokens ++ (laterFields fields ++ [.closing .curly]))

def laterItems : List Value → List Token
  | [] => []
  | item :: items => .comma :: (item.tokens ++ laterItems items)

def laterFields : List (List Char × Value) → List Token
  | [] => []
  | (name, value) :: fields =>
    .comma :: .text name :: .colon :: (value.tokens ++ laterFields fields)

end

theorem Value.exists_tokens (value : Value) :
    ∃ first rest, value.tokens = first :: rest ∧ first ≠ .closing .square := by
  fun_cases Value.tokens value
  all_goals exact ⟨_, _, rfl, nofun⟩

theorem build_openArray (frames : List Frame) (item : Value) (tokens : List Token) :
    build .awaiting frames (.opening .square :: (item.tokens ++ tokens)) =
      build .awaiting (.array [] :: frames) (item.tokens ++ tokens) := by
  obtain ⟨first, rest, same, begins⟩ := item.exists_tokens
  rw [same, List.cons_append, build]
  intro _ ends
  cases ends
  exact begins rfl

mutual

/-- A value is read off its tokens, whatever is open around it and whatever follows. -/
theorem build_tokens (value : Value) (frames : List Frame) (rest : List Token) :
    build .awaiting frames (value.tokens ++ rest) = build (.finished value) frames rest := by
  match value with
  | .word word => rw [Value.tokens, List.singleton_append, build]
  | .number integer => rw [Value.tokens, List.singleton_append, build]
  | .text raw => rw [Value.tokens, List.singleton_append, build]
  | .array [] => rw [Value.tokens, List.cons_append, List.singleton_append, build]
  | .array (item :: items) =>
    rw [Value.tokens, List.cons_append, List.append_assoc, List.append_assoc, build_openArray,
      build_tokens item, List.singleton_append, build_laterItems items]
    rfl
  | .object [] => rw [Value.tokens, List.cons_append, List.singleton_append, build]
  | .object ((name, value) :: fields) =>
    rw [Value.tokens, List.cons_append, List.cons_append, List.cons_append, List.append_assoc,
      List.append_assoc, build, build_tokens value, List.singleton_append,
      build_laterFields fields]
    rfl

theorem build_laterItems (items : List Value) (item : Value) (done : List Value)
    (frames : List Frame) (rest : List Token) :
    build (.finished item) (.array done :: frames)
        (laterItems items ++ .closing .square :: rest) =
      build (.finished (.array (done.reverse ++ item :: items))) frames rest := by
  match items with
  | [] => rw [laterItems, List.nil_append, build, List.reverse_cons]
  | next :: items =>
    rw [laterItems, List.cons_append, List.append_assoc, build, build_tokens next,
      build_laterItems items, List.reverse_cons, List.append_assoc, List.singleton_append]

theorem build_laterFields (fields : List (List Char × Value)) (name : List Char) (value : Value)
    (done : List (List Char × Value)) (frames : List Frame) (rest : List Token) :
    build (.finished value) (.object done name :: frames)
        (laterFields fields ++ .closing .curly :: rest) =
      build (.finished (.object (done.reverse ++ (name, value) :: fields))) frames rest := by
  match fields with
  | [] => rw [laterFields, List.nil_append, build, List.reverse_cons]
  | (next, other) :: fields =>
    rw [laterFields, List.cons_append, List.cons_append, List.cons_append, List.append_assoc,
      build, build_tokens other, build_laterFields fields, List.reverse_cons, List.append_assoc,
      List.singleton_append]

end

theorem parse_of_scan {chars : List Char} {value : Value}
    (scanned : scan chars = some value.tokens) : parse chars = some value := by
  have built := build_tokens value [] []
  rw [List.append_nil, build] at built
  unfold parse
  rw [scanned]
  simp only [built]

end Rebalance.Json
