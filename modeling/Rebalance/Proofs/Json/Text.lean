import Rebalance.Json.Text

/-!
What is written between quotes reads back: each character is written as itself, as a backslash
and a letter, or by its code, and none of the three is taken for another or for the end.
-/

namespace Rebalance.Json

inductive Escapes (c : Char) : List Char → Prop where
  | letter {e : Char} (short : e ≠ 'u') (known : isEscapable e = true) (stands : escaped e = c) :
      Escapes c ['\\', e]
  | unit (control : c.toNat < 32) :
      Escapes c ['\\', 'u', '0', '0', hexDigit (c.toNat / 16), hexDigit (c.toNat % 16)]
  | plain (unquoted : c ≠ '"') (straight : c ≠ '\\') (printed : 32 ≤ c.toNat) : Escapes c [c]

theorem escapes_escapeChar (c : Char) : Escapes c (escapeChar c) := by
  unfold escapeChar
  split
  · exact .letter (by decide) (by decide) rfl
  · exact .letter (by decide) (by decide) rfl
  · exact .letter (by decide) (by decide) rfl
  · exact .letter (by decide) (by decide) rfl
  · exact .letter (by decide) (by decide) rfl
  · exact .letter (by decide) (by decide) rfl
  · exact .letter (by decide) (by decide) rfl
  · next unquoted straight _ _ _ _ _ =>
    split
    · next control => exact .unit control
    · next printed => exact .plain unquoted straight (Nat.le_of_not_lt printed)

theorem escape_cons (c : Char) (chars : List Char) :
    escape (c :: chars) = escapeChar c ++ escape chars := List.flatMap_cons

theorem isHexDigit_hexDigit : ∀ d < 16, isHexDigit (hexDigit d) = true := by decide

theorem hexValue_hexDigit : ∀ d < 16, hexValue (hexDigit d) = d := by decide

theorem hexUnit_of_control {n : Nat} (control : n < 32) :
    hexUnit '0' '0' (hexDigit (n / 16)) (hexDigit (n % 16)) = n := by
  have zero : hexValue '0' = 0 := rfl
  unfold hexUnit
  rw [zero, hexValue_hexDigit _ (by omega), hexValue_hexDigit _ (by omega)]
  omega

theorem scanText_slash {c : Char} (short : c ≠ 'u') (done rest : List Char) :
    scanText done ('\\' :: c :: rest) =
      if isEscapable c then scanText (c :: '\\' :: done) rest else none :=
  scanText.eq_4 done c rest fun _ _ _ _ _ unit => absurd unit short

theorem scanText_plain {c : Char} (unquoted : c ≠ '"') (straight : c ≠ '\\')
    (done rest : List Char) :
    scanText done (c :: rest) =
      if c = '\\' || c.toNat < 32 then none else scanText (c :: done) rest :=
  scanText.eq_5 done c rest unquoted (fun _ _ _ _ _ slash => absurd slash straight)
    fun _ _ slash => absurd slash straight

theorem scanText_escapes {c : Char} {piece : List Char} (escapes : Escapes c piece)
    (done rest : List Char) :
    scanText done (piece ++ rest) = scanText (piece.reverse ++ done) rest := by
  cases escapes with
  | @letter e short known stands =>
    rw [List.cons_append, List.singleton_append, scanText_slash short, if_pos known]
    rfl
  | unit control =>
    have first := isHexDigit_hexDigit (c.toNat / 16) (by omega)
    have second := isHexDigit_hexDigit (c.toNat % 16) (by omega)
    have zero : isHexDigit '0' = true := by decide
    simp [scanText, first, second, zero]
  | plain unquoted straight printed =>
    rw [List.singleton_append, scanText_plain unquoted straight]
    have fits : ¬ c.toNat < 32 := Nat.not_lt.2 printed
    simp [straight, fits]

/-- A written text is read up to the quote that ends it, and no further. -/
theorem scanText_escape (chars done rest : List Char) :
    scanText done (escape chars ++ '"' :: rest) = some (done.reverse ++ escape chars, rest) := by
  induction chars generalizing done with
  | nil => simp [escape, scanText]
  | cons c chars ih =>
    rw [escape_cons, List.append_assoc, scanText_escapes (escapes_escapeChar c), ih,
      List.reverse_append, List.reverse_reverse, List.append_assoc]

theorem unescapeOnto_escapes {c : Char} {piece : List Char} (escapes : Escapes c piece)
    (done rest : List Char) :
    unescapeOnto done (piece ++ rest) = unescapeOnto (c :: done) rest := by
  cases escapes with
  | @letter e short known stands =>
    rw [List.cons_append, List.singleton_append,
      unescapeOnto.eq_4 done e rest fun _ _ _ _ _ unit => absurd unit short, stands]
  | unit control =>
    have value := hexUnit_of_control control
    have low : isLowSurrogate c.toNat = false := by simp [isLowSurrogate]; omega
    have high : isHighSurrogate c.toNat = false := by simp [isHighSurrogate]; omega
    have same : Char.ofNat c.toNat = c := Char.ofNat_toNat c
    simp only [List.cons_append, List.nil_append]
    rw [unescapeOnto.eq_def]
    simp [value, low, high, same]
  | plain unquoted straight printed =>
    rw [List.singleton_append, unescapeOnto.eq_5 done c rest
      (fun _ _ _ _ _ slash => absurd slash straight) fun _ _ slash => absurd slash straight]

theorem unescapeOnto_escape (done chars : List Char) :
    unescapeOnto done (escape chars) = some (done.reverse ++ chars) := by
  induction chars generalizing done with
  | nil => simp [escape, unescapeOnto]
  | cons c chars ih =>
    rw [escape_cons, unescapeOnto_escapes (escapes_escapeChar c), ih, List.reverse_cons,
      List.append_assoc, List.singleton_append]

theorem unescape_escape (chars : List Char) : unescape (escape chars) = some chars :=
  unescapeOnto_escape [] chars

theorem le_toNat_of_isEscapable {c : Char} (known : isEscapable c = true) : 32 ≤ c.toNat := by
  have listed := List.contains_iff_mem.1 known
  simp only [List.mem_cons, List.not_mem_nil, or_false] at listed
  rcases listed with rfl | rfl | rfl | rfl | rfl | rfl | rfl | rfl <;> decide

theorem le_toNat_of_mem_escape {chars : List Char} {c : Char} (written : c ∈ escape chars) :
    32 ≤ c.toNat := by
  obtain ⟨meant, _, member⟩ := List.mem_flatMap.1 written
  have digits : ∀ d < 16, 32 ≤ (hexDigit d).toNat := by decide
  have escapes := escapes_escapeChar meant
  generalize escapeChar meant = piece at escapes member
  cases escapes with
  | @letter e short known stands =>
    rcases List.mem_cons.1 member with rfl | last
    · decide
    · rw [List.mem_singleton.1 last]
      exact le_toNat_of_isEscapable known
  | unit control =>
    have high := digits (meant.toNat / 16) (by omega)
    have low := digits (meant.toNat % 16) (by omega)
    simp only [List.mem_cons, List.not_mem_nil, or_false] at member
    rcases member with rfl | rfl | rfl | rfl | rfl | rfl
    · decide
    · decide
    · decide
    · decide
    · exact high
    · exact low
  | plain unquoted straight printed =>
    rw [List.mem_singleton.1 member]
    exact printed

end Rebalance.Json
