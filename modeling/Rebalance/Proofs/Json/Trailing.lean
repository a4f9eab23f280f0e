import Rebalance.Json.Value
import Rebalance.Proofs.Json.Token

/-!
A blank at the end of a text. It belongs to no token and completes none, so with it the text is
read, or refused, as without it.
-/

namespace Rebalance.Json

variable {s : Char}

def followedBy {α : Type} (s : Char) (read : α × List Char) : α × List Char :=
  (read.1, read.2 ++ [s])

theorem eq_of_isSpace (space : isSpace s = true) : s = ' ' ∨ s = '\t' ∨ s = '\n' ∨ s = '\r' := by
  simpa [isSpace, or_assoc] using space

/-- After its first character a word is read as it stands, or nothing is. -/
theorem scanToken_word_space (c : Char) (word : List Char) (token : Token)
    (reads : ∀ left, scanToken c (word ++ left) = some (token, left))
    (others : ∀ rest, (∀ left, rest ≠ word ++ left) → scanToken c rest = none) (solid : s ∉ word)
    (rest : List Char) : scanToken c (rest ++ [s]) = (scanToken c rest).map (followedBy s) := by
  by_cases begins : ∃ left, rest = word ++ left
  · obtain ⟨left, rfl⟩ := begins
    rw [List.append_assoc, reads, reads]
    rfl
  · rw [not_exists] at begins
    have other : ∀ left, rest ++ [s] ≠ word ++ left := by
      intro left same
      rcases List.append_eq_append_iff.1 same with ⟨middle, rfl, last⟩ | ⟨middle, rfl, _⟩
      · cases middle with
        | nil => exact begins [] (by rw [List.append_nil, List.append_nil])
        | cons b middle =>
          obtain ⟨rfl, _⟩ := List.cons_eq_cons.1 last
          exact solid (List.mem_append_right rest List.mem_cons_self)
      · exact begins middle rfl
    rw [others rest begins, others _ other]
    rfl

section
variable (space : isSpace s = true)
include space

theorem isEscapable_space : isEscapable s = false := by
  rcases eq_of_isSpace space with rfl | rfl | rfl | rfl <;> rfl

theorem isHexDigit_space : isHexDigit s = false := by
  rcases eq_of_isSpace space with rfl | rfl | rfl | rfl <;> rfl

theorem isDigit_space : Decimal.isDigit s = false := by
  rcases eq_of_isSpace space with rfl | rfl | rfl | rfl <;> rfl

theorem scanText_space (done chars : List Char) :
    scanText done (chars ++ [s]) = (scanText done chars).map (followedBy s) := by
  fun_induction scanText done chars with
  | case1 done =>
    -- a space is taken into the text, which still has no end
    rcases eq_of_isSpace space with rfl | rfl | rfl | rfl <;> rfl
  | case2 done rest => rfl
  | case3 done a b c d rest hex ih => exact (if_pos hex).trans ih
  | case4 done a b c d rest hex => exact if_neg hex
  | case5 done c rest short known ih =>
    have unit : c ≠ 'u' := fun same => absurd (same ▸ known) (by decide)
    rw [List.cons_append, List.cons_append, scanText_slash unit, if_pos known, ih]
  | case6 done c rest short unknown =>
    by_cases unit : c = 'u'
    · subst unit
      match rest with
      | [] => rfl
      | [_] => rfl
      | [_, _] => rfl
      | [a, b, c] => simp [scanText, isHexDigit_space space]
      | a :: b :: c :: d :: rest => exact absurd rfl (short a b c d rest rfl)
    · rw [List.cons_append, List.cons_append, scanText_slash unit, if_neg unknown]
      rfl
  | case7 done c rest unquoted _ single stops =>
    by_cases slash : c = '\\'
    · subst slash
      cases rest with
      | nil =>
        have unit : s ≠ 'u' := fun same => absurd (same ▸ space) (by decide)
        rw [List.singleton_append, scanText_slash unit, isEscapable_space space]
        rfl
      | cons c rest => exact absurd rfl (single c rest rfl)
    · rw [List.cons_append, scanText_plain unquoted slash, if_pos stops]
      rfl
  | case8 done c rest unquoted _ _ goes ih =>
    have slash : c ≠ '\\' := by
      rintro rfl
      exact goes rfl
    rw [List.cons_append, scanText_plain unquoted slash, if_neg goes, ih]

theorem takeWhile_isDigit_space (chars : List Char) :
    (chars ++ [s]).takeWhile Decimal.isDigit = chars.takeWhile Decimal.isDigit := by
  induction chars with
  | nil => exact List.takeWhile_cons_of_neg (Bool.eq_false_iff.1 (isDigit_space space))
  | cons c chars ih =>
    rw [List.cons_append, List.takeWhile_cons, List.takeWhile_cons, ih]

theorem dropWhile_isDigit_space (chars : List Char) :
    (chars ++ [s]).dropWhile Decimal.isDigit = chars.dropWhile Decimal.isDigit ++ [s] := by
  rw [List.dropWhile_append]
  simp [isDigit_space space]

theorem skipDigits_space (chars : List Char) :
    skipDigits (chars ++ [s]) = (skipDigits chars).map (· ++ [s]) := by
  have dropped := dropWhile_isDigit_space space chars
  cases chars with
  | nil => exact if_neg (Bool.eq_false_iff.1 (isDigit_space space))
  | cons c rest =>
    rw [List.cons_append] at dropped ⊢
    rw [skipDigits, skipDigits, dropped]
    split <;> rfl

theorem skipFraction_space (chars : List Char) :
    skipFraction (chars ++ [s]) = (skipFraction chars).map (· ++ [s]) := by
  match chars with
  | [] => rcases eq_of_isSpace space with rfl | rfl | rfl | rfl <;> rfl
  | c :: rest =>
    by_cases point : c = '.'
    · subst point
      exact skipDigits_space space rest
    · simp [skipFraction, point]

theorem skipExponent_space (chars : List Char) :
    skipExponent (chars ++ [s]) = (skipExponent chars).map (· ++ [s]) := by
  match chars with
  | [] => rcases eq_of_isSpace space with rfl | rfl | rfl | rfl <;> rfl
  | c :: rest =>
    rw [List.cons_append]
    unfold skipExponent
    simp only
    split
    · match rest with
      | [] => rcases eq_of_isSpace space with rfl | rfl | rfl | rfl <;> rfl
      | d :: rest =>
        by_cases plus : d = '+'
        · subst plus
          exact skipDigits_space space rest
        · by_cases minus : d = '-'
          · subst minus
            exact skipDigits_space space rest
          · simpa [plus, minus] using skipDigits_space space (d :: rest)
    · rfl

theorem scanMagnitude_space (negative : Bool) (chars : List Char) :
    scanMagnitude negative (chars ++ [s]) =
      (scanMagnitude negative chars).map (followedBy s) := by
  have left (rest whole : List Char) : (rest ++ [s]).length = (whole ++ [s]).length ↔
      rest.length = whole.length := by
    rw [List.length_append, List.length_append, Nat.add_right_cancel_iff]
  simp only [scanMagnitude, takeWhile_isDigit_space space, dropWhile_isDigit_space space,
    skipFraction_space space, Option.bind_eq_bind, Option.bind_map, Function.comp_def,
    skipExponent_space space, left, Option.map_bind]
  rfl

theorem scanToken_space (c : Char) (rest : List Char) :
    scanToken c (rest ++ [s]) = (scanToken c rest).map (followedBy s) := by
  have solid (word : List Char) (apart : word.any isSpace = false) : s ∉ word :=
    fun member => List.any_eq_false.1 apart s member space
  unfold scanToken
  split
  case h_7 =>
    rw [scanText_space space, Option.map_map, Option.map_map]
    rfl
  case h_8 => exact scanMagnitude_space space true rest
  case h_9 =>
    exact scanToken_word_space 'n' ['u', 'l', 'l'] (.word .null) scanToken.eq_9 scanToken.eq_10
      (solid _ rfl) rest
  case h_10 =>
    exact scanToken_word_space 't' ['r', 'u', 'e'] (.word .true) scanToken.eq_11 scanToken.eq_12
      (solid _ rfl) rest
  case h_11 =>
    exact scanToken_word_space 'f' ['a', 'l', 's', 'e'] (.word .false) scanToken.eq_13
      scanToken.eq_14 (solid _ rfl) rest
  case h_12 =>
    split
    · exact scanMagnitude_space space false (_ :: rest)
    · rfl
  all_goals rfl

theorem scanFrom_space (fuel : Nat) (done : List Token) (chars : List Char) :
    scanFrom (fuel + 1) done (chars ++ [s]) = scanFrom fuel done chars := by
  induction fuel generalizing done chars with
  | zero =>
    cases chars with
    | nil => exact if_pos space
    | cons c rest =>
      have spent (done : List Token) (chars : List Char) :
          scanFrom 0 done (chars ++ [s]) = none := by cases chars <;> rfl
      rw [List.cons_append, scanFrom.eq_3, scanToken_space space, spent]
      cases scanToken c rest with
      | none => exact ite_self none
      | some read =>
        simp only [Option.map_some, followedBy, spent]
        exact ite_self none
  | succ fuel ih =>
    cases chars with
    | nil => exact if_pos space
    | cons c rest =>
      rw [List.cons_append, scanFrom.eq_3, scanFrom.eq_3, scanToken_space space, ih]
      cases scanToken c rest with
      | none => rfl
      | some read => simp only [Option.map_some, followedBy, ih]

theorem scan_space (chars : List Char) : scan (chars ++ [s]) = scan chars := by
  rw [scan, List.length_append]
  exact scanFrom_space space chars.length [] chars

theorem parse_space (chars : List Char) : parse (chars ++ [s]) = parse chars := by
  rw [parse, parse, scan_space space]

end

end Rebalance.Json
