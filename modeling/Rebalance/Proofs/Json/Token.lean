import Rebalance.Proofs.Decimal.Natural
import Rebalance.Proofs.Json.Text
import Rebalance.Proofs.Json.Value

/-!
Texts and their tokens. A number ends only where something follows that cannot go on with it,
so what a piece of text stands for is said for delimited places.
-/

namespace Rebalance.Json

/-- A text and its tokens; blanks between them count for nothing. -/
inductive Scans : List Char → List Token → Prop where
  | nil : Scans [] []
  | blank {c : Char} {rest : List Char} {tokens : List Token} (space : isSpace c = true)
      (later : Scans rest tokens) : Scans (c :: rest) tokens
  | token {c : Char} {piece rest : List Char} {token : Token} {tokens : List Token}
      (solid : isSpace c = false) (found : scanToken c (piece ++ rest) = some (token, rest))
      (later : Scans rest tokens) : Scans (c :: (piece ++ rest)) (token :: tokens)

namespace Scans

variable {chars rest : List Char} {tokens later : List Token}

theorem scanFrom_eq (scans : Scans chars tokens) {fuel : Nat} (done : List Token)
    (enough : chars.length ≤ fuel) :
    scanFrom fuel done chars = some (done.reverse ++ tokens) := by
  induction scans generalizing fuel done with
  | nil => cases fuel <;> simp [scanFrom]
  | blank space later ih =>
    cases fuel with
    | zero => exact absurd enough (Nat.not_succ_le_zero _)
    | succ fuel =>
      rw [scanFrom, if_pos space]
      exact ih done (Nat.le_of_succ_le_succ enough)
  | @token c piece rest token tokens solid found later ih =>
    cases fuel with
    | zero => exact absurd enough (Nat.not_succ_le_zero _)
    | succ fuel =>
      have room : rest.length ≤ fuel := by
        rw [List.length_cons, List.length_append] at enough
        omega
      rw [scanFrom, solid, if_neg Bool.false_ne_true]
      simp only [found]
      rw [ih (token :: done) room, List.reverse_cons, List.append_assoc, List.singleton_append]

theorem scan_eq (scans : Scans chars tokens) : scan chars = some tokens :=
  scans.scanFrom_eq [] (Nat.le_refl _)

theorem mark {c : Char} {token : Token} (solid : isSpace c = false)
    (known : ∀ rest, scanToken c rest = some (token, rest)) (scans : Scans rest later) :
    Scans (c :: rest) (token :: later) :=
  @Scans.token c [] rest token later solid (known rest) scans

theorem comma (scans : Scans rest later) : Scans (',' :: rest) (.comma :: later) :=
  scans.mark rfl fun _ => rfl

theorem colon (scans : Scans rest later) : Scans (':' :: rest) (.colon :: later) :=
  scans.mark rfl fun _ => rfl

theorem quoted (meant : List Char) (scans : Scans rest later) :
    Scans ('"' :: (escape meant ++ '"' :: rest)) (.text (escape meant) :: later) := by
  have found : scanToken '"' ((escape meant ++ ['"']) ++ rest) =
      some (.text (escape meant), rest) := by
    rw [List.append_assoc, List.singleton_append]
    exact congrArg (Option.map _) (scanText_escape meant [] rest)
  have read := Scans.token (by decide) found scans
  rwa [List.append_assoc, List.singleton_append] at read

end Scans

def Delimited (rest : List Char) : Prop := ∀ c ∈ rest.head?, c = ',' ∨ c = ']' ∨ c = '\x7d'

def Spells (piece : List Char) (tokens : List Token) : Prop :=
  ∀ (rest : List Char) (later : List Token), Delimited rest → Scans rest later →
    Scans (piece ++ rest) (tokens ++ later)

theorem Spells.scan_eq {piece : List Char} {tokens : List Token} (spells : Spells piece tokens) :
    scan piece = some tokens := by
  have scans := spells [] [] (by simp [Delimited]) .nil
  rw [List.append_nil, List.append_nil] at scans
  exact scans.scan_eq

theorem Spells.parse_eq {piece : List Char} {value : Value} (spells : Spells piece value.tokens) :
    parse piece = some value := parse_of_scan spells.scan_eq

theorem scanMagnitude_digits (negative : Bool) (n : Nat) {rest : List Char}
    (delimited : Delimited rest) :
    scanMagnitude negative (Decimal.digits n ++ rest) =
      some (.number (integerOf negative n true), rest) := by
  have stops : ∀ c ∈ rest.head?, Decimal.isDigit c = false := by
    intro c first
    rcases delimited c first with rfl | rfl | rfl <;> decide
  have fraction : skipFraction rest = some rest := by
    cases rest with
    | nil => rfl
    | cons c rest => rcases delimited c rfl with rfl | rfl | rfl <;> rfl
  have exponent : skipExponent rest = some rest := by
    cases rest with
    | nil => rfl
    | cons c rest => rcases delimited c rfl with rfl | rfl | rfl <;> rfl
  obtain ⟨taken, dropped⟩ := Decimal.takeWhile_digits (n := n) stops
  simp [scanMagnitude, taken, dropped, Decimal.read?_digits, fraction, exponent]

theorem isSpace_digit {c : Char} (digit : Decimal.isDigit c = true) : isSpace c = false := by
  rw [Bool.eq_false_iff]
  intro space
  simp only [isSpace, Bool.or_eq_true, decide_eq_true_eq] at space
  rcases space with ((rfl | rfl) | rfl) | rfl <;> exact absurd digit (by decide)

theorem scanToken_digit {c : Char} (digit : Decimal.isDigit c = true) (rest : List Char) :
    scanToken c rest = scanMagnitude false (c :: rest) := by
  unfold scanToken
  split
  case h_12 => rw [if_pos digit]
  all_goals exact absurd digit (by decide)

theorem spells_digits (n : Nat) : Spells (Decimal.digits n) [.number (some (n : Int))] := by
  intro rest later delimited scans
  have read := scanMagnitude_digits false n delimited
  cases digits : Decimal.digits n with
  | nil => exact absurd digits (Decimal.digits_ne_nil n)
  | cons c piece =>
    have digit : Decimal.isDigit c = true :=
      Decimal.isDigit_of_mem_digits (digits ▸ List.mem_cons_self)
    rw [digits] at read
    exact .token (isSpace_digit digit) ((scanToken_digit digit _).trans read) scans

theorem spells_integer (n : Int) : Spells (Decimal.integer n) [.number (some n)] := by
  unfold Decimal.integer
  split
  · next negative =>
    intro rest later delimited scans
    have read := scanMagnitude_digits true n.natAbs delimited
    have value : integerOf true n.natAbs true = some n := by
      have filled : n.natAbs ≠ 0 := by omega
      have same : -(n.natAbs : Int) = n := by omega
      rw [integerOf, Bool.not_true, if_neg Bool.false_ne_true, if_pos rfl, if_neg filled, same]
    rw [value] at read
    exact .token (by decide) read scans
  · next positive =>
    have same : (n.natAbs : Int) = n := by omega
    have spells := spells_digits n.natAbs
    rwa [same] at spells

theorem spells_bool (b : Bool) :
    Spells (if b then "true" else "false").toList [.word (if b then .true else .false)] := by
  intro rest later _ scans
  cases b with
  | true =>
    have found : scanToken 't' (['r', 'u', 'e'] ++ rest) = some (.word .true, rest) := rfl
    exact .token (by decide) found scans
  | false =>
    have found : scanToken 'f' (['a', 'l', 's', 'e'] ++ rest) = some (.word .false, rest) := rfl
    exact .token (by decide) found scans

theorem spells_quoted (meant : List Char) :
    Spells ('"' :: escape meant ++ ['"']) [.text (escape meant)] := by
  intro rest later _ scans
  rw [List.cons_append, List.cons_append, List.append_assoc]
  exact scans.quoted meant

end Rebalance.Json
