import Rebalance.Decimal.Natural

/-!
What is written in decimal reads back: digits without a leading zero, and nothing but digits.
-/

namespace Rebalance.Decimal

theorem isDigit_eq (c : Char) : isDigit c = c.isDigit := by
  rfl

theorem isDigit_of_mem_digits {n : Nat} {c : Char} (member : c ∈ digits n) : isDigit c = true := by
  rw [isDigit_eq]
  exact Nat.isDigit_of_mem_toDigits (by decide) (by decide) member

theorem digits_ne_nil (n : Nat) : digits n ≠ [] := Nat.toDigits_ne_nil

theorem extend_digits (n : Nat) : extend 0 (digits n) = n := by
  unfold extend digits digitValue
  have read := Nat.ofDigitChars_ten_toDigits (n := n)
  rw [Nat.ofDigitChars_eq_foldl] at read
  exact read

theorem digits_inj {m n : Nat} : digits m = digits n ↔ m = n := by
  constructor
  · intro same
    rw [← extend_digits m, same, extend_digits]
  · exact congrArg digits

theorem head?_digits_of_pos {n : Nat} (positive : 0 < n) : (digits n).head? ≠ some '0' := by
  induction n using Nat.strongRecOn with
  | ind n ih =>
    unfold digits at ih ⊢
    rw [Nat.toDigits_eq_if (by decide)]
    split
    · intro zero
      have := Nat.digitChar_eq_zero.1 (Option.some.inj zero)
      omega
    · have first := ih (n / 10) (by omega) (by omega)
      rw [List.head?_append]
      cases leading : (Nat.toDigits 10 (n / 10)).head? with
      | none => exact absurd (List.head?_eq_none_iff.1 leading) Nat.toDigits_ne_nil
      | some c =>
        rw [leading] at first
        exact first

theorem hasLeadingZero_digits (n : Nat) : hasLeadingZero (digits n) = false := by
  cases n with
  | zero => rfl
  | succ n =>
    have first := head?_digits_of_pos n.succ_pos
    unfold hasLeadingZero
    split
    · next same =>
      rw [same] at first
      exact absurd rfl first
    · rfl

theorem read?_digits (n : Nat) : read? (digits n) = some n := by
  have filled : (digits n).isEmpty = false := by simpa using digits_ne_nil n
  have every : (digits n).all isDigit = true :=
    List.all_eq_true.2 fun _ member => isDigit_of_mem_digits member
  simp [read?, hasLeadingZero_digits, value?, filled, every, extend_digits]

theorem takeWhile_isDigit_append {row rest : List Char} (each : ∀ c ∈ row, isDigit c = true)
    (ended : ∀ c ∈ rest.head?, isDigit c = false) :
    (row ++ rest).takeWhile isDigit = row ∧ (row ++ rest).dropWhile isDigit = rest := by
  rw [List.takeWhile_append_of_pos each, List.dropWhile_append_of_pos each]
  cases rest with
  | nil => exact ⟨List.append_nil row, rfl⟩
  | cons c rest =>
    have stop : ¬ isDigit c = true := Bool.eq_false_iff.1 (ended c rfl)
    rw [List.takeWhile_cons_of_neg stop, List.dropWhile_cons_of_neg stop]
    exact ⟨List.append_nil row, rfl⟩

/-- The digits at the front of a text are those that are written, where no digit follows. -/
theorem takeWhile_digits {n : Nat} {rest : List Char}
    (ended : ∀ c ∈ rest.head?, isDigit c = false) :
    (digits n ++ rest).takeWhile isDigit = digits n ∧
      (digits n ++ rest).dropWhile isDigit = rest :=
  takeWhile_isDigit_append (fun _ => isDigit_of_mem_digits) ended

end Rebalance.Decimal
