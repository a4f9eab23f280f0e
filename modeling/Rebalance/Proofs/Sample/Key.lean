import Rebalance.Proofs.Decimal.Natural
import Rebalance.Sample.Key

/-!
The text of a group's key tells it from every other key. A procedure may be named anything, with
separators too and with what looks like another key, so the text is taken apart from its end:
neither the numeral of a host nor the name of a scope has a separator in it.
-/

namespace Rebalance

theorem eq_nil_of_last {separator : Char} {after more rest : List Char}
    (last : separator ∉ after) (same : separator :: after = more ++ separator :: rest) :
    more = [] := by
  cases more with
  | nil => rfl
  | cons c more =>
    have inside : separator ∈ after := by
      rw [(List.cons.inj same).2]
      exact List.mem_append_right more List.mem_cons_self
    exact absurd inside last

/-- Texts are parted at the last separator in one way only. -/
theorem parted_at_last {separator : Char} {before after other rest : List Char}
    (last : separator ∉ after) (lastToo : separator ∉ rest)
    (same : before ++ separator :: after = other ++ separator :: rest) :
    before = other ∧ after = rest := by
  rcases List.append_eq_append_iff.1 same with ⟨more, front, back⟩ | ⟨more, front, back⟩
  · obtain rfl := eq_nil_of_last last back
    exact ⟨by rw [front, List.append_nil], (List.cons.inj back).2⟩
  · obtain rfl := eq_nil_of_last lastToo back
    exact ⟨by rw [front, List.append_nil], (List.cons.inj back).2.symm⟩

def Scope.name : Scope → List Char
  | .single partition => 'p' :: Decimal.digits partition
  | .every => ['a', 'l', 'l']

theorem Scope.name_inj {first second : Scope} : first.name = second.name ↔ first = second := by
  cases first <;> cases second <;> simp [Scope.name, Decimal.digits_inj]

theorem not_mem_digits {c : Char} (other : Decimal.isDigit c = false) (n : Nat) :
    c ∉ Decimal.digits n := by
  intro member
  rw [Decimal.isDigit_of_mem_digits member] at other
  cases other

theorem Scope.slash_not_mem_name (scope : Scope) : '/' ∉ scope.name := by
  cases scope with
  | single partition =>
    exact List.not_mem_cons_of_ne_of_not_mem (by decide) (not_mem_digits (by decide) partition)
  | every => decide

namespace GroupKey

theorem toList_text (key : GroupKey) :
    key.text.toList =
      (key.procedure.toList ++ '@' :: Decimal.digits key.host) ++ '/' :: key.scope.name := by
  obtain ⟨procedure, host, scope⟩ := key
  cases scope <;> simp [text, Scope.name, Decimal.digits]

/-- Keys with one text are one key. -/
theorem text_inj (first second : GroupKey) : first.text = second.text ↔ first = second := by
  constructor
  · intro same
    have spelt := congrArg String.toList same
    rw [toList_text, toList_text] at spelt
    obtain ⟨front, scopes⟩ :=
      parted_at_last first.scope.slash_not_mem_name second.scope.slash_not_mem_name spelt
    have plain := not_mem_digits (c := '@') (by decide)
    obtain ⟨procedures, hosts⟩ := parted_at_last (plain first.host) (plain second.host) front
    obtain ⟨procedure, host, scope⟩ := first
    rw [GroupKey.mk.injEq]
    exact ⟨String.toList_inj.1 procedures, Decimal.digits_inj.1 hosts, Scope.name_inj.1 scopes⟩
  · exact congrArg text

example : (⟨"pay@1/all", 2, .single 3⟩ : GroupKey).text = "pay@1/all@2/p3" := by decide +kernel

end GroupKey

end Rebalance
