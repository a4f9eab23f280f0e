import Mathlib.Data.List.Chain
import Mathlib.Data.List.Forall2
import Rebalance.Proofs.Json.Trailing

/-!
The texts of a value: its tokens, each in any of its spellings, with blanks before, between and
after them. These are the texts that are parsed to it, and no others: a text is scanned to tokens
only if it spells them, and it is scanned so wherever no two numbers can run into one.
-/

namespace Rebalance.Json

inductive IsRaw : List Char → Prop where
  | nil : IsRaw []
  | plain {c : Char} {rest : List Char} (unquoted : c ≠ '"') (straight : c ≠ '\\')
      (printed : 32 ≤ c.toNat) (later : IsRaw rest) : IsRaw (c :: rest)
  | letter {c : Char} {rest : List Char} (known : isEscapable c = true) (later : IsRaw rest) :
      IsRaw ('\\' :: c :: rest)
  | unit {a b c d : Char} {rest : List Char}
      (hex : (isHexDigit a && isHexDigit b && isHexDigit c && isHexDigit d) = true)
      (later : IsRaw rest) : IsRaw ('\\' :: 'u' :: a :: b :: c :: d :: rest)

def IsDigits (row : List Char) : Prop := row ≠ [] ∧ ∀ c ∈ row, Decimal.isDigit c = true

/-- What a number has before its point: digits, without a zero in front that adds nothing. -/
def IsWhole (row : List Char) : Prop := IsDigits row ∧ Decimal.hasLeadingZero row = false

inductive IsFraction : List Char → Prop where
  | none : IsFraction []
  | some {row : List Char} (digits : IsDigits row) : IsFraction ('.' :: row)

inductive IsExponent : List Char → Prop where
  | none : IsExponent []
  | some {mark : Char} {sign row : List Char} (marked : mark = 'e' ∨ mark = 'E')
      (signed : sign = [] ∨ sign = ['+'] ∨ sign = ['-']) (digits : IsDigits row) :
      IsExponent (mark :: (sign ++ row))

/-- How a number may be written, and the integer that it is if it is written as one. -/
inductive IsNumber : List Char → Option Int → Prop where
  | natural {row : List Char} (whole : IsWhole row) :
      IsNumber row (some (Decimal.extend 0 row : Int))
  | negative {row : List Char} (whole : IsWhole row) (filled : Decimal.extend 0 row ≠ 0) :
      IsNumber ('-' :: row) (some (-(Decimal.extend 0 row : Int)))
  | minusZero {row : List Char} (whole : IsWhole row) (empty : Decimal.extend 0 row = 0) :
      IsNumber ('-' :: row) none
  | real {sign row fraction exponent : List Char} (signed : sign = [] ∨ sign = ['-'])
      (whole : IsWhole row) (point : IsFraction fraction) (power : IsExponent exponent)
      (more : fraction ++ exponent ≠ []) :
      IsNumber (sign ++ (row ++ (fraction ++ exponent))) none

inductive Writes : List Char → Token → Prop where
  | openSquare : Writes ['['] (.opening .square)
  | closeSquare : Writes [']'] (.closing .square)
  | openCurly : Writes ['\x7b'] (.opening .curly)
  | closeCurly : Writes ['\x7d'] (.closing .curly)
  | comma : Writes [','] .comma
  | colon : Writes [':'] .colon
  | null : Writes ['n', 'u', 'l', 'l'] (.word .null)
  | true : Writes ['t', 'r', 'u', 'e'] (.word .true)
  | false : Writes ['f', 'a', 'l', 's', 'e'] (.word .false)
  | number {piece : List Char} {integer : Option Int} (number : IsNumber piece integer) :
      Writes piece (.number integer)
  | text {raw : List Char} (sound : IsRaw raw) : Writes ('"' :: (raw ++ ['"'])) (.text raw)

/-- Tokens in their order, with blanks before, between and after them. -/
inductive Spaced : List Char → List Token → Prop where
  | nil : Spaced [] []
  | blank {c : Char} {rest : List Char} {tokens : List Token} (space : isSpace c = true)
      (later : Spaced rest tokens) : Spaced (c :: rest) tokens
  | token {piece rest : List Char} {token : Token} {tokens : List Token}
      (written : Writes piece token) (later : Spaced rest tokens) :
      Spaced (piece ++ rest) (token :: tokens)

section Strings
variable {raw rest : List Char}

theorem scanText_raw (sound : IsRaw raw) (done rest : List Char) :
    scanText done (raw ++ '"' :: rest) = some (done.reverse ++ raw, rest) := by
  induction sound generalizing done with
  | nil => rw [List.nil_append, scanText.eq_2, List.append_nil]
  | @plain c later unquoted straight printed _ ih =>
    have goes : ¬ (c = '\\' || c.toNat < 32) = true := by
      simp [straight, printed]
    rw [List.cons_append, scanText_plain unquoted straight, if_neg goes, ih, List.reverse_cons,
      List.append_assoc, List.singleton_append]
  | @letter c later known _ ih =>
    have short : c ≠ 'u' := fun same => absurd (same ▸ known) (by decide)
    rw [List.cons_append, List.cons_append, scanText_slash short, if_pos known, ih]
    simp
  | @unit a b c d later hex _ ih =>
    simp only [List.cons_append]
    rw [scanText.eq_3, if_pos hex, ih]
    simp

theorem isRaw_of_scanText {done chars found : List Char}
    (read : scanText done chars = some (found, rest)) :
    ∃ raw, IsRaw raw ∧ found = done.reverse ++ raw ∧ chars = raw ++ '"' :: rest := by
  fun_induction scanText done chars with
  | case1 => cases read
  | case2 done later =>
    cases read
    exact ⟨[], .nil, (List.append_nil _).symm, rfl⟩
  | case3 done a b c d later hex ih =>
    obtain ⟨raw, sound, rfl, rfl⟩ := ih read
    exact ⟨_, .unit hex sound, by simp, rfl⟩
  | case4 => cases read
  | case5 done c later short known ih =>
    obtain ⟨raw, sound, rfl, rfl⟩ := ih read
    exact ⟨_, .letter known sound, by simp, rfl⟩
  | case6 => cases read
  | case7 => cases read
  | case8 done c later unquoted _ _ goes ih =>
    obtain ⟨raw, sound, rfl, rfl⟩ := ih read
    simp only [Bool.or_eq_true, decide_eq_true_eq, not_or, Nat.not_lt] at goes
    exact ⟨_, .plain unquoted goes.1 goes.2 sound, by simp, rfl⟩

end Strings

def Ended (rest : List Char) : Prop :=
  ∀ c ∈ rest.head?, Decimal.isDigit c = false ∧ c ≠ '.' ∧ c ≠ 'e' ∧ c ≠ 'E'

section Numbers
variable {row fraction exponent rest chars : List Char}

theorem skipDigits_append (digits : IsDigits row)
    (ended : ∀ c ∈ rest.head?, Decimal.isDigit c = false) :
    skipDigits (row ++ rest) = some rest := by
  obtain ⟨filled, each⟩ := digits
  have dropped := (Decimal.takeWhile_isDigit_append each ended).2
  cases row with
  | nil => exact absurd rfl filled
  | cons c row =>
    rw [List.cons_append] at dropped ⊢
    rw [skipDigits, if_pos (each c List.mem_cons_self), dropped]

theorem of_skipDigits (read : skipDigits chars = some rest) :
    ∃ row, IsDigits row ∧ chars = row ++ rest := by
  cases chars with
  | nil => cases read
  | cons c chars =>
    rw [skipDigits] at read
    split at read
    · next digit =>
      cases read
      refine ⟨(c :: chars).takeWhile Decimal.isDigit, ⟨?_, List.all_eq_true.1 List.all_takeWhile⟩,
        List.takeWhile_append_dropWhile.symm⟩
      rw [List.takeWhile_cons_of_pos digit]
      exact List.cons_ne_nil _ _
    · cases read

theorem skipFraction_append (point : IsFraction fraction)
    (ended : ∀ c ∈ rest.head?, Decimal.isDigit c = false ∧ c ≠ '.') :
    skipFraction (fraction ++ rest) = some rest := by
  cases point with
  | none =>
    cases rest with
    | nil => rfl
    | cons c rest => exact skipFraction.eq_2 _ fun _ same => (ended c rfl).2 (List.cons.inj same).1
  | some digits => exact skipDigits_append digits fun c first => (ended c first).1

theorem of_skipFraction (read : skipFraction chars = some rest) :
    ∃ fraction, IsFraction fraction ∧ chars = fraction ++ rest := by
  unfold skipFraction at read
  split at read
  · obtain ⟨row, digits, rfl⟩ := of_skipDigits read
    exact ⟨_, .some digits, rfl⟩
  · cases read
    exact ⟨[], .none, rfl⟩

theorem skipExponent_append (power : IsExponent exponent) (ended : Ended rest) :
    skipExponent (exponent ++ rest) = some rest := by
  cases power with
  | none =>
    cases rest with
    | nil => rfl
    | cons c rest =>
      obtain ⟨_, _, small, large⟩ := ended c rfl
      simp [skipExponent, small, large]
  | @some mark sign row marked signed digits =>
    have skipped := skipDigits_append digits fun c first => (ended c first).1
    have known : (mark = 'e' || mark = 'E') = true := by simpa using marked
    unfold skipExponent
    simp only [List.cons_append, List.append_assoc, if_pos known]
    rcases signed with rfl | rfl | rfl
    · -- digits begin with no sign
      obtain ⟨filled, each⟩ := digits
      cases row with
      | nil => exact absurd rfl filled
      | cons c row =>
        have digit := each c List.mem_cons_self
        have plus : c ≠ '+' := fun same => absurd (same ▸ digit) (by decide)
        have minus : c ≠ '-' := fun same => absurd (same ▸ digit) (by decide)
        simpa [plus, minus] using skipped
    · exact skipped
    · exact skipped

theorem of_skipExponent (read : skipExponent chars = some rest) :
    ∃ exponent, IsExponent exponent ∧ chars = exponent ++ rest := by
  unfold skipExponent at read
  split at read
  · next c chars =>
    split at read
    · next marked =>
      have known : c = 'e' ∨ c = 'E' := by simpa using marked
      split at read
      · obtain ⟨row, digits, rfl⟩ := of_skipDigits read
        exact ⟨_, .some known (.inr (.inl rfl)) digits, rfl⟩
      · obtain ⟨row, digits, rfl⟩ := of_skipDigits read
        exact ⟨_, .some known (.inr (.inr rfl)) digits, rfl⟩
      · obtain ⟨row, digits, rfl⟩ := of_skipDigits read
        exact ⟨_, .some known (.inl rfl) digits, rfl⟩
    · cases read
      exact ⟨[], .none, rfl⟩
  · cases read
    exact ⟨[], .none, rfl⟩

theorem read?_whole (whole : IsWhole row) : Decimal.read? row = some (Decimal.extend 0 row) := by
  obtain ⟨⟨filled, each⟩, bare⟩ := whole
  have all : row.all Decimal.isDigit = true := List.all_eq_true.2 each
  simp [Decimal.read?, bare, Decimal.value?, filled, all]

theorem of_read? {n : Nat} (read : Decimal.read? row = some n) :
    IsWhole row ∧ n = Decimal.extend 0 row := by
  unfold Decimal.read? Decimal.value? at read
  split at read
  · cases read
  · next bare =>
    split at read
    · next digits =>
      cases read
      rw [Bool.and_eq_true, Bool.not_eq_true', List.isEmpty_eq_false_iff, List.all_eq_true]
        at digits
      exact ⟨⟨digits, Bool.eq_false_iff.2 bare⟩, rfl⟩
    · cases read

/-- A number is plain where nothing stands between its digits and what follows it. -/
theorem isPlain_iff (fraction exponent rest : List Char) :
    decide (rest.length = (fraction ++ (exponent ++ rest)).length) =
      (fraction ++ exponent).isEmpty := by
  rw [← List.append_assoc, List.length_append, Bool.eq_iff_iff, decide_eq_true_eq,
    List.isEmpty_iff, ← List.length_eq_zero_iff]
  omega

theorem scanMagnitude_append (negative : Bool) (whole : IsWhole row) (point : IsFraction fraction)
    (power : IsExponent exponent) (ended : Ended rest) :
    scanMagnitude negative (row ++ (fraction ++ (exponent ++ rest))) =
      some (.number (integerOf negative (Decimal.extend 0 row) (fraction ++ exponent).isEmpty),
        rest) := by
  have after : ∀ c ∈ (exponent ++ rest).head?, Decimal.isDigit c = false ∧ c ≠ '.' := by
    cases power with
    | none => exact fun c first => ⟨(ended c first).1, (ended c first).2.1⟩
    | some marked signed digits =>
      intro c first
      cases first
      rcases marked with rfl | rfl <;> decide
  have stops : ∀ c ∈ (fraction ++ (exponent ++ rest)).head?, Decimal.isDigit c = false := by
    cases point with
    | none => exact fun c first => (after c first).1
    | some digits =>
      intro c first
      cases first
      decide
  obtain ⟨taken, dropped⟩ := Decimal.takeWhile_isDigit_append whole.1.2 stops
  simp only [scanMagnitude, taken, dropped, read?_whole whole, skipFraction_append point after,
    skipExponent_append power ended, isPlain_iff, Option.bind_eq_bind, Option.bind_some,
    Option.pure_def]

theorem of_scanMagnitude {negative : Bool} {token : Token}
    (read : scanMagnitude negative chars = some (token, rest)) :
    ∃ row fraction exponent, IsWhole row ∧ IsFraction fraction ∧ IsExponent exponent ∧
      chars = row ++ (fraction ++ (exponent ++ rest)) ∧
      token =
        .number (integerOf negative (Decimal.extend 0 row) (fraction ++ exponent).isEmpty) := by
  simp only [scanMagnitude, Option.bind_eq_bind, Option.bind_eq_some_iff, Option.pure_def,
    Option.some.injEq, Prod.mk.injEq] at read
  obtain ⟨magnitude, first, after, second, left, third, rfl, rfl⟩ := read
  obtain ⟨whole, rfl⟩ := of_read? first
  obtain ⟨fraction, point, here⟩ := of_skipFraction second
  obtain ⟨exponent, power, rfl⟩ := of_skipExponent third
  refine ⟨_, fraction, exponent, whole, point, power, ?_, ?_⟩
  · rw [← here, List.takeWhile_append_dropWhile]
  · rw [here, isPlain_iff]

theorem isNumber_iff {piece : List Char} {integer : Option Int} :
    IsNumber piece integer ↔ ∃ negative row fraction exponent,
      IsWhole row ∧ IsFraction fraction ∧ IsExponent exponent ∧
      piece = (if negative then ['-'] else []) ++ (row ++ (fraction ++ exponent)) ∧
      integer = integerOf negative (Decimal.extend 0 row) (fraction ++ exponent).isEmpty := by
  constructor
  · intro number
    cases number with
    | natural whole =>
      exact ⟨false, _, [], [], whole, .none, .none, by simp, rfl⟩
    | negative whole filled =>
      exact ⟨true, _, [], [], whole, .none, .none, by simp, by simp [integerOf, filled]⟩
    | minusZero whole empty =>
      exact ⟨true, _, [], [], whole, .none, .none, by simp, by simp [integerOf, empty]⟩
    | @real sign row fraction exponent signed whole point power more =>
      have filled : (fraction ++ exponent).isEmpty = false := by
        rwa [List.isEmpty_eq_false_iff]
      rcases signed with rfl | rfl
      · exact ⟨false, _, _, _, whole, point, power, rfl, by rw [filled]; rfl⟩
      · exact ⟨true, _, _, _, whole, point, power, rfl, by rw [filled]; rfl⟩
  · rintro ⟨negative, row, fraction, exponent, whole, point, power, rfl, rfl⟩
    by_cases none : fraction ++ exponent = []
    · rw [none, List.append_nil]
      cases negative with
      | false => exact .natural whole
      | true =>
        by_cases empty : Decimal.extend 0 row = 0
        · rw [empty]
          exact .minusZero whole empty
        · simpa [integerOf, empty] using IsNumber.negative whole empty
    · have filled : (fraction ++ exponent).isEmpty = false := List.isEmpty_eq_false_iff.2 none
      rw [filled]
      refine .real ?_ whole point power none
      cases negative with
      | false => exact .inl rfl
      | true => exact .inr rfl

end Numbers

def Token.isNumber : Token → Bool
  | number _ => true
  | _ => false

def Apart (first second : Token) : Prop := first.isNumber = true → second.isNumber = false

section Scanning
variable {piece chars rest : List Char} {token : Token} {tokens later : List Token}

theorem IsWhole.exists_digit {row : List Char} (whole : IsWhole row) :
    ∃ c digits, row = c :: digits ∧ Decimal.isDigit c = true := by
  obtain ⟨⟨filled, each⟩, _⟩ := whole
  cases row with
  | nil => exact absurd rfl filled
  | cons c digits => exact ⟨c, digits, rfl, each c List.mem_cons_self⟩

theorem Scans.number {integer : Option Int} (number : IsNumber piece integer) (ended : Ended rest)
    (scans : Scans rest later) : Scans (piece ++ rest) (.number integer :: later) := by
  obtain ⟨negative, row, fraction, exponent, whole, point, power, rfl, rfl⟩ := isNumber_iff.1 number
  have read := scanMagnitude_append negative whole point power ended
  rw [← List.append_assoc fraction, ← List.append_assoc row] at read
  cases negative with
  | true => exact .token (by decide) read scans
  | false =>
    obtain ⟨c, digits, rfl, digit⟩ := whole.exists_digit
    exact .token (isSpace_digit digit) ((scanToken_digit digit _).trans read) scans

theorem Scans.written (written : Writes piece token)
    (ended : token.isNumber = true → Ended rest) (scans : Scans rest later) :
    Scans (piece ++ rest) (token :: later) := by
  cases written with
  | openSquare | closeSquare | openCurly | closeCurly | comma | colon =>
    exact scans.mark rfl fun _ => rfl
  | null => exact @Scans.token 'n' ['u', 'l', 'l'] rest _ _ (by decide) rfl scans
  | true => exact @Scans.token 't' ['r', 'u', 'e'] rest _ _ (by decide) rfl scans
  | false => exact @Scans.token 'f' ['a', 'l', 's', 'e'] rest _ _ (by decide) rfl scans
  | number number => exact scans.number number (ended rfl)
  | @text raw sound =>
    have found : scanToken '"' ((raw ++ ['"']) ++ rest) = some (.text raw, rest) := by
      rw [List.append_assoc, List.singleton_append]
      exact congrArg (Option.map _) (scanText_raw sound [] rest)
    exact .token (by decide) found scans

theorem Spaced.ended (spaced : Spaced chars tokens)
    (other : ∀ token ∈ tokens.head?, token.isNumber = false) : Ended chars := by
  cases spaced with
  | nil => exact fun c first => nomatch first
  | blank space later =>
    intro c first
    cases first
    rcases eq_of_isSpace space with rfl | rfl | rfl | rfl <;> decide
  | @token piece rest token tokens written later =>
    have differs := other token rfl
    intro c first
    cases written with
    | number number => cases differs
    | openSquare | closeSquare | openCurly | closeCurly | comma | colon | null | true | false |
      text =>
      cases first
      decide

/-- A text that spells tokens is scanned to them, where no two of them run into one. -/
theorem Spaced.scans (spaced : Spaced chars tokens) (apart : tokens.IsChain Apart) :
    Scans chars tokens := by
  induction spaced with
  | nil => exact .nil
  | blank space _ ih => exact .blank space (ih apart)
  | token written later ih =>
    obtain ⟨first, others⟩ := List.isChain_cons.1 apart
    exact .written written (fun number => later.ended fun next member => first next member number)
      (ih others)

theorem of_scanToken {c : Char} (read : scanToken c chars = some (token, rest)) :
    ∃ piece, Writes (c :: piece) token ∧ chars = piece ++ rest := by
  unfold scanToken at read
  split at read
  · cases read
    exact ⟨[], .openSquare, rfl⟩
  · cases read
    exact ⟨[], .closeSquare, rfl⟩
  · cases read
    exact ⟨[], .openCurly, rfl⟩
  · cases read
    exact ⟨[], .closeCurly, rfl⟩
  · cases read
    exact ⟨[], .comma, rfl⟩
  · cases read
    exact ⟨[], .colon, rfl⟩
  · obtain ⟨⟨found, left⟩, scanned, same⟩ := Option.map_eq_some_iff.1 read
    cases same
    obtain ⟨raw, sound, same, rfl⟩ := isRaw_of_scanText scanned
    cases same
    exact ⟨raw ++ ['"'], .text sound, by simp⟩
  · obtain ⟨row, fraction, exponent, whole, point, power, rfl, rfl⟩ := of_scanMagnitude read
    refine ⟨row ++ (fraction ++ exponent), .number (isNumber_iff.2 ?_), by simp⟩
    exact ⟨true, row, fraction, exponent, whole, point, power, rfl, rfl⟩
  · split at read <;> cases read
    exact ⟨_, .null, rfl⟩
  · split at read <;> cases read
    exact ⟨_, .true, rfl⟩
  · split at read <;> cases read
    exact ⟨_, .false, rfl⟩
  · split at read
    · obtain ⟨row, fraction, exponent, whole, point, power, same, rfl⟩ := of_scanMagnitude read
      have number := isNumber_iff.2 ⟨false, row, fraction, exponent, whole, point, power, rfl, rfl⟩
      obtain ⟨first, digits, rfl, _⟩ := whole.exists_digit
      obtain ⟨rfl, rfl⟩ := List.cons.inj same
      exact ⟨digits ++ (fraction ++ exponent), .number number, by simp⟩
    · cases read

theorem spaced_of_scanFrom {fuel : Nat} {done : List Token}
    (read : scanFrom fuel done chars = some tokens) :
    ∃ later, tokens = done.reverse ++ later ∧ Spaced chars later := by
  fun_induction scanFrom fuel done chars with
  | case1 =>
    cases read
    exact ⟨[], (List.append_nil _).symm, .nil⟩
  | case2 => cases read
  | case3 fuel done c rest space ih =>
    obtain ⟨later, same, spaced⟩ := ih read
    exact ⟨later, same, .blank space spaced⟩
  | case4 fuel done c chars _ token rest scanned ih =>
    obtain ⟨later, rfl, spaced⟩ := ih read
    obtain ⟨piece, written, rfl⟩ := of_scanToken scanned
    refine ⟨token :: later, by simp, ?_⟩
    rw [← List.cons_append]
    exact .token written spaced
  | case5 => cases read

theorem spaced_of_scan (read : scan chars = some tokens) : Spaced chars tokens := by
  obtain ⟨later, rfl, spaced⟩ := spaced_of_scanFrom read
  exact spaced

end Scanning

theorem isChain_cons_of_other {token : Token} {tokens : List Token} (other : token.isNumber = false)
    (apart : tokens.IsChain Apart) : (token :: tokens).IsChain Apart :=
  apart.cons fun _ _ number => absurd (other.symm.trans number) Bool.false_ne_true

mutual

/-- In a value, and with anything but a number after it, no two numbers stand side by side. -/
theorem isChain_tokens (value : Value) {rest : List Token} (apart : rest.IsChain Apart)
    (other : ∀ token ∈ rest.head?, token.isNumber = false) :
    (value.tokens ++ rest).IsChain Apart := by
  match value with
  | .word word => exact isChain_cons_of_other rfl apart
  | .number integer => exact apart.cons fun token first _ => other token first
  | .text raw => exact isChain_cons_of_other rfl apart
  | .array [] => exact isChain_cons_of_other rfl (isChain_cons_of_other rfl apart)
  | .array (item :: items) =>
    have closed : (Token.closing .square :: rest).IsChain Apart := isChain_cons_of_other rfl apart
    obtain ⟨inner, ends⟩ := isChain_laterItems items closed (by simp [Token.isNumber])
    rw [Value.tokens, List.cons_append, List.append_assoc, List.append_assoc]
    exact isChain_cons_of_other rfl (isChain_tokens item inner ends)
  | .object [] => exact isChain_cons_of_other rfl (isChain_cons_of_other rfl apart)
  | .object ((name, value) :: fields) =>
    have closed : (Token.closing .curly :: rest).IsChain Apart := isChain_cons_of_other rfl apart
    obtain ⟨inner, ends⟩ := isChain_laterFields fields closed (by simp [Token.isNumber])
    rw [Value.tokens, List.cons_append, List.cons_append, List.cons_append, List.append_assoc,
      List.append_assoc]
    exact isChain_cons_of_other rfl (isChain_cons_of_other rfl (isChain_cons_of_other rfl
      (isChain_tokens value inner ends)))

theorem isChain_laterItems (items : List Value) {rest : List Token} (apart : rest.IsChain Apart)
    (other : ∀ token ∈ rest.head?, token.isNumber = false) :
    (laterItems items ++ rest).IsChain Apart ∧
      ∀ token ∈ (laterItems items ++ rest).head?, token.isNumber = false := by
  match items with
  | [] => exact ⟨apart, other⟩
  | item :: items =>
    obtain ⟨inner, ends⟩ := isChain_laterItems items apart other
    rw [laterItems, List.cons_append, List.append_assoc]
    exact ⟨isChain_cons_of_other rfl (isChain_tokens item inner ends), by simp [Token.isNumber]⟩

theorem isChain_laterFields (fields : List (List Char × Value)) {rest : List Token}
    (apart : rest.IsChain Apart) (other : ∀ token ∈ rest.head?, token.isNumber = false) :
    (laterFields fields ++ rest).IsChain Apart ∧
      ∀ token ∈ (laterFields fields ++ rest).head?, token.isNumber = false := by
  match fields with
  | [] => exact ⟨apart, other⟩
  | (name, value) :: fields =>
    obtain ⟨inner, ends⟩ := isChain_laterFields fields apart other
    rw [laterFields, List.cons_append, List.cons_append, List.cons_append, List.append_assoc]
    exact ⟨isChain_cons_of_other rfl (isChain_cons_of_other rfl (isChain_cons_of_other rfl
      (isChain_tokens value inner ends))), by simp [Token.isNumber]⟩

end

theorem Spaced.parse_eq {chars : List Char} {value : Value} (spaced : Spaced chars value.tokens) :
    parse chars = some value := by
  have apart := isChain_tokens value .nil (fun _ none => nomatch none)
  rw [List.append_nil] at apart
  exact parse_of_scan (spaced.scans apart).scan_eq

/-- What has been read of an array or object: its items so far, each with the comma after it, and
the name of the next. -/
def Frame.tokens : Frame → List Token
  | array items => .opening .square :: items.reverse.flatMap fun item => item.tokens ++ [.comma]
  | object fields name =>
    .opening .curly :: (fields.reverse.flatMap fun field =>
      .text field.1 :: .colon :: (field.2.tokens ++ [.comma])) ++ [.text name, .colon]

def openTokens : List Frame → List Token
  | [] => []
  | frame :: frames => openTokens frames ++ frame.tokens

def Progress.tokens : Progress → List Token
  | awaiting => []
  | finished value => value.tokens

theorem laterItems_concat (items : List Value) (item : Value) :
    laterItems (items ++ [item]) =
      .comma :: ((items.flatMap fun item => item.tokens ++ [.comma]) ++ item.tokens) := by
  induction items with
  | nil => simp [laterItems]
  | cons first items ih => simp [laterItems, ih]

theorem tokens_array_concat (items : List Value) (item : Value) :
    (Value.array (items ++ [item])).tokens =
      .opening .square :: ((items.flatMap fun item => item.tokens ++ [.comma]) ++ item.tokens ++
        [.closing .square]) := by
  cases items with
  | nil => simp [Value.tokens, laterItems]
  | cons first items => simp [Value.tokens, laterItems_concat]

theorem laterFields_concat (fields : List (List Char × Value)) (field : List Char × Value) :
    laterFields (fields ++ [field]) =
      .comma :: ((fields.flatMap fun field =>
        .text field.1 :: .colon :: (field.2.tokens ++ [.comma])) ++
          (.text field.1 :: .colon :: field.2.tokens)) := by
  induction fields with
  | nil => simp [laterFields]
  | cons first fields ih => simp [laterFields, ih]

theorem tokens_object_concat (fields : List (List Char × Value)) (field : List Char × Value) :
    (Value.object (fields ++ [field])).tokens =
      .opening .curly :: ((fields.flatMap fun field =>
        .text field.1 :: .colon :: (field.2.tokens ++ [.comma])) ++
          (.text field.1 :: .colon :: field.2.tokens) ++ [.closing .curly]) := by
  cases fields with
  | nil => simp [Value.tokens, laterFields]
  | cons first fields => simp [Value.tokens, laterFields_concat]

theorem tokens_of_build {progress : Progress} {frames : List Frame} {tokens rest : List Token}
    {value : Value} (built : build progress frames tokens = some (value, rest)) :
    openTokens frames ++ (progress.tokens ++ tokens) = value.tokens ++ rest := by
  fun_induction build progress frames tokens with
  | case1 =>
    cases built
    rfl
  | case2 _ _ _ _ ih => simpa [openTokens, Frame.tokens, Progress.tokens] using ih built
  | case3 _ _ _ _ ih =>
    simpa [openTokens, Frame.tokens, Progress.tokens, tokens_array_concat] using ih built
  | case4 _ _ _ _ _ _ ih => simpa [openTokens, Frame.tokens, Progress.tokens] using ih built
  | case5 _ _ _ _ _ ih =>
    simpa [openTokens, Frame.tokens, Progress.tokens, tokens_object_concat] using ih built
  | case6 _ _ ih => simpa [Progress.tokens, Value.tokens] using ih built
  | case7 _ _ _ ih => simpa [openTokens, Frame.tokens, Progress.tokens] using ih built
  | case8 _ _ ih => simpa [Progress.tokens, Value.tokens] using ih built
  | case9 _ _ _ ih => simpa [openTokens, Frame.tokens, Progress.tokens] using ih built
  | case10 _ _ _ ih => simpa [Progress.tokens, Value.tokens] using ih built
  | case11 _ _ _ ih => simpa [Progress.tokens, Value.tokens] using ih built
  | case12 _ _ _ ih => simpa [Progress.tokens, Value.tokens] using ih built
  | case13 => cases built

/-- A text is parsed to a value exactly if it is one of the value's texts. -/
theorem parse_eq_some_iff {chars : List Char} {value : Value} :
    parse chars = some value ↔ Spaced chars value.tokens := by
  refine ⟨fun read => ?_, Spaced.parse_eq⟩
  unfold parse at read
  split at read
  · next tokens scanned =>
    split at read
    · next found built =>
      cases read
      have same := tokens_of_build built
      rw [List.append_nil] at same
      exact same ▸ spaced_of_scan scanned
    · cases read
  · cases read

theorem mapM_eq_some_iff {β γ : Type} {read : β → Option γ} {items : List β} {found : List γ} :
    items.mapM read = some found ↔
      List.Forall₂ (fun item value => read item = some value) items found := by
  induction items generalizing found with
  | nil => simp [List.forall₂_nil_left_iff, eq_comm]
  | cons item items ih =>
    simp only [List.mapM_cons, Option.bind_eq_bind, Option.bind_eq_some_iff, Option.pure_def,
      Option.some.injEq, ih, List.forall₂_cons_left_iff]
    constructor
    · rintro ⟨value, first, later, others, rfl⟩
      exact ⟨value, later, first, others, rfl⟩
    · rintro ⟨value, later, first, others, rfl⟩
      exact ⟨value, first, later, others, rfl⟩

theorem exists_of_forall₂ {β γ : Type} {holds : β → γ → Prop} {items : List β} {found : List γ}
    (each : List.Forall₂ holds items found) {item : β} (listed : item ∈ items) :
    ∃ value ∈ found, holds item value := by
  induction each with
  | nil => exact absurd listed List.not_mem_nil
  | @cons first value items found here _ ih =>
    rcases List.mem_cons.1 listed with rfl | later
    · exact ⟨value, List.mem_cons_self, here⟩
    · obtain ⟨other, member, there⟩ := ih later
      exact ⟨other, List.mem_cons_of_mem value member, there⟩

end Rebalance.Json
