import Mathlib.Data.List.Basic
import Mathlib.Data.List.DropRight
import Rebalance.Ident
import Rebalance.Sample.Latency

/-!
The median of a buffer. It is remembered once it has been asked for, and whatever is asked of
the buffer before or after, it is the median of the samples that stand there now.
-/

namespace Rebalance

/-- The middle one of ascending numbers, or the mean of the two middle ones rounded half up. -/
inductive IsMiddle : List Nat → Nat → Prop
  | one {lower upper : List Nat} (m : Nat) (halves : lower.length = upper.length) :
      IsMiddle (lower ++ m :: upper) m
  | two {lower upper : List Nat} {low high m : Nat} (halves : lower.length = upper.length)
      (above : low + high ≤ 2 * m) (near : 2 * m ≤ low + high + 1) :
      IsMiddle (lower ++ low :: high :: upper) m

theorem pairwise_mergeSort (samples : List Nat) : samples.mergeSort.Pairwise (· ≤ ·) := by
  have total (a b : Nat) : (decide (a ≤ b) || decide (b ≤ a)) = true := by
    simpa using Nat.le_total a b
  have trans (a b c : Nat) (below : decide (a ≤ b) = true) (above : decide (b ≤ c) = true) :
      decide (a ≤ c) = true := by
    rw [decide_eq_true_eq] at below above ⊢
    exact Nat.le_trans below above
  exact (List.pairwise_mergeSort trans total samples).imp of_decide_eq_true

theorem eq_mergeSort {samples sorted : List Nat} (ascending : sorted.Pairwise (· ≤ ·))
    (shuffled : sorted.Perm samples) : sorted = samples.mergeSort := by
  have same : sorted.Perm samples.mergeSort := shuffled.trans (List.mergeSort_perm samples _).symm
  refine List.Perm.eq_of_pairwise ?_ ascending (pairwise_mergeSort samples) same
  intro a b _ _ below above
  exact Nat.le_antisymm below above

/-- A median is asked of the samples in their order, which is one for all orders of arrival. -/
theorem median?_perm {first second : List Nat} (shuffled : first.Perm second) :
    median? first = median? second := by
  have sorted : first.mergeSort = second.mergeSort :=
    eq_mergeSort (pairwise_mergeSort first) ((List.mergeSort_perm first _).trans shuffled)
  unfold median?
  rw [sorted]

theorem isMiddle_of_median? {samples : List Nat} {m : Nat} (known : median? samples = some m) :
    IsMiddle samples.mergeSort m := by
  unfold median? at known
  generalize samples.mergeSort = sorted at known ⊢
  simp only at known
  split at known
  · next odd =>
    obtain ⟨inside, rfl⟩ := List.getElem?_eq_some_iff.1 known
    have halves : (sorted.take (sorted.length / 2)).length =
        (sorted.drop (sorted.length / 2 + 1)).length := by
      rw [List.length_take, List.length_drop]
      omega
    have parts := IsMiddle.one sorted[sorted.length / 2] halves
    rwa [← List.drop_eq_getElem_cons inside, List.take_append_drop] at parts
  · next even =>
    split at known
    · next low high lowHere highHere =>
      obtain ⟨before, rfl⟩ := List.getElem?_eq_some_iff.1 lowHere
      obtain ⟨inside, rfl⟩ := List.getElem?_eq_some_iff.1 highHere
      have next : sorted.length / 2 - 1 + 1 = sorted.length / 2 := by omega
      have halves : (sorted.take (sorted.length / 2 - 1)).length =
          (sorted.drop (sorted.length / 2 + 1)).length := by
        rw [List.length_take, List.length_drop]
        omega
      have mean := Option.some.inj known
      have parts : IsMiddle (sorted.take (sorted.length / 2 - 1) ++
          sorted[sorted.length / 2 - 1] :: sorted[sorted.length / 2] ::
            sorted.drop (sorted.length / 2 + 1)) m := .two halves (by omega) (by omega)
      have second : sorted[sorted.length / 2] :: sorted.drop (sorted.length / 2 + 1) =
          sorted.drop (sorted.length / 2 - 1 + 1) := by
        rw [next]
        exact (List.drop_eq_getElem_cons inside).symm
      rwa [second, ← List.drop_eq_getElem_cons before, List.take_append_drop] at parts
    · cases known

theorem median?_of_isMiddle {samples : List Nat} {m : Nat}
    (middle : IsMiddle samples.mergeSort m) : median? samples = some m := by
  unfold median?
  generalize samples.mergeSort = sorted at middle ⊢
  simp only
  cases middle with
  | @one lower upper m halves =>
    have length : (lower ++ m :: upper).length = 2 * lower.length + 1 := by
      rw [List.length_append, List.length_cons, ← halves]
      omega
    have half : (2 * lower.length + 1) / 2 = lower.length := by omega
    rw [length, half, if_pos (by omega), List.getElem?_append_right (Nat.le_refl _), Nat.sub_self]
    rfl
  | @two lower upper low high m halves above near =>
    have length : (lower ++ low :: high :: upper).length = 2 * (lower.length + 1) := by
      rw [List.length_append, List.length_cons, List.length_cons, ← halves]
      omega
    have half : 2 * (lower.length + 1) / 2 = lower.length + 1 := by omega
    have mean : (low + high + 1) / 2 = m := by omega
    rw [length, half, if_neg (by omega), Nat.add_sub_cancel,
      List.getElem?_append_right (Nat.le_refl _), Nat.sub_self,
      List.getElem?_append_right (Nat.le_add_right ..), Nat.add_sub_cancel_left]
    exact congrArg some mean

/-- A median is what stands in the middle once the samples are in ascending order. -/
theorem median?_eq_some_iff {samples : List Nat} {m : Nat} :
    median? samples = some m ↔
      ∃ sorted, sorted.Perm samples ∧ sorted.Pairwise (· ≤ ·) ∧ IsMiddle sorted m := by
  constructor
  · intro known
    exact ⟨samples.mergeSort, List.mergeSort_perm samples _, pairwise_mergeSort samples,
      isMiddle_of_median? known⟩
  · rintro ⟨sorted, shuffled, ascending, middle⟩
    rw [eq_mergeSort ascending shuffled] at middle
    exact median?_of_isMiddle middle

theorem median?_eq_none_iff {samples : List Nat} : median? samples = none ↔ samples = [] := by
  constructor
  · intro unknown
    unfold median? at unknown
    simp only [List.length_mergeSort] at unknown
    split at unknown
    · next odd =>
      have outside := List.getElem?_eq_none_iff.1 unknown
      rw [List.length_mergeSort] at outside
      omega
    · next even =>
      by_contra filled
      have positive : 0 < samples.length := List.length_pos_iff.2 filled
      have low := List.getElem?_eq_getElem (l := samples.mergeSort) (i := samples.length / 2 - 1)
        (by rw [List.length_mergeSort]; omega)
      have high := List.getElem?_eq_getElem (l := samples.mergeSort) (i := samples.length / 2)
        (by rw [List.length_mergeSort]; omega)
      rw [low, high] at unknown
      cases unknown
  · rintro rfl
    simp [median?]

theorem exists_median? {samples : List Nat} (filled : samples ≠ []) :
    ∃ m, median? samples = some m := by
  rw [← Option.isSome_iff_exists, Option.isSome_iff_ne_none]
  exact fun unknown => filled (median?_eq_none_iff.1 unknown)

theorem IsMiddle.between {sorted : List Nat} {m : Nat} (middle : IsMiddle sorted m)
    (ascending : sorted.Pairwise (· ≤ ·)) :
    ∃ low ∈ sorted, ∃ high ∈ sorted, low ≤ m ∧ m ≤ high := by
  cases middle with
  | @one lower upper m halves =>
    have member : m ∈ lower ++ m :: upper := List.mem_append_right _ List.mem_cons_self
    exact ⟨m, member, m, member, Nat.le_refl m, Nat.le_refl m⟩
  | @two lower upper low high m halves above near =>
    have order : low ≤ high :=
      List.rel_of_pairwise_cons (List.pairwise_append.1 ascending).2.1 List.mem_cons_self
    refine ⟨low, List.mem_append_right _ List.mem_cons_self, high,
      List.mem_append_right _ (List.mem_cons_of_mem _ List.mem_cons_self), ?_, ?_⟩
    · omega
    · omega

theorem median?_between {samples : List Nat} {m : Nat} (known : median? samples = some m) :
    ∃ low ∈ samples, ∃ high ∈ samples, low ≤ m ∧ m ≤ high := by
  obtain ⟨sorted, shuffled, ascending, middle⟩ := median?_eq_some_iff.1 known
  obtain ⟨low, lowHere, high, highHere, between⟩ := middle.between ascending
  exact ⟨low, shuffled.mem_iff.1 lowHere, high, shuffled.mem_iff.1 highHere, between⟩

/-- The mean of two words is a word, and no sum in words of twice the width wraps around. -/
theorem mean_words {low high : Nat} (lowWord : low ≤ wordMax) (highWord : high ≤ wordMax) :
    ((BitVec.ofNat 128 low + BitVec.ofNat 128 high + 1#128) / 2#128).toNat =
      (low + high + 1) / 2 := by
  have bound : wordMax = 2 ^ 64 - 1 := rfl
  have sum : (low + high + 1) % 2 ^ 128 = low + high + 1 := Nat.mod_eq_of_lt (by omega)
  rw [BitVec.toNat_udiv, BitVec.toNat_add, BitVec.toNat_add]
  simp only [BitVec.toNat_ofNat, Nat.mod_add_mod, Nat.add_mod_mod]
  rw [sum]

namespace LatencyBuffer

inductive Call
  | push (ns : Nat)
  | median
  | size
  | clear
deriving DecidableEq

def take (buffer : LatencyBuffer) : Call → LatencyBuffer
  | .push ns => buffer.push ns
  | .median => buffer.median.2
  | .size => buffer
  | .clear => buffer.clear

def after (calls : List Call) : LatencyBuffer := calls.foldl take {}

def Call.sample? : Call → Option Nat
  | .push ns => some ns
  | _ => none

def pushed (calls : List Call) : List Nat :=
  (calls.rtakeWhile (· ≠ .clear)).filterMap Call.sample?

theorem pushed_concat_clear (calls : List Call) : pushed (calls ++ [.clear]) = [] := by
  rw [pushed, List.rtakeWhile_concat_neg _ _ _ (by decide)]
  rfl

theorem pushed_concat (calls : List Call) (call : Call) (goesOn : call ≠ .clear) :
    pushed (calls ++ [call]) = pushed calls ++ call.sample?.toList := by
  rw [pushed, List.rtakeWhile_concat_pos _ _ _ (by simpa using goesOn), List.filterMap_append]
  cases call with
  | push | median | size | clear => rfl

/-- A buffer with these samples, that remembers their median if any. -/
structure Remembers (buffer : LatencyBuffer) (samples : List Nat) : Prop where
  stored : buffer.samples.toList = samples
  sound : buffer.cached = none ∨ buffer.cached = median? samples

namespace Remembers

variable {buffer : LatencyBuffer} {samples : List Nat}

theorem empty : ({} : LatencyBuffer).Remembers [] := ⟨rfl, .inl rfl⟩

theorem push (remembers : buffer.Remembers samples) (ns : Nat) :
    (buffer.push ns).Remembers (samples ++ [ns]) := by
  refine ⟨?_, .inl rfl⟩
  rw [← remembers.stored]
  exact Array.toList_push

theorem median_eq (remembers : buffer.Remembers samples) : buffer.median.1 = median? samples := by
  unfold LatencyBuffer.median
  cases cached : buffer.cached with
  | none => exact congrArg median? remembers.stored
  | some m =>
    have sound := remembers.sound
    rw [cached] at sound
    exact sound.resolve_left nofun

theorem median (remembers : buffer.Remembers samples) : buffer.median.2.Remembers samples := by
  unfold LatencyBuffer.median
  cases buffer.cached with
  | none => exact ⟨remembers.stored, .inr (congrArg median? remembers.stored)⟩
  | some m => exact remembers

end Remembers

theorem remembers_after (calls : List Call) : (after calls).Remembers (pushed calls) := by
  induction calls using List.reverseRecOn with
  | nil => exact .empty
  | append_singleton calls call ih =>
    have step : after (calls ++ [call]) = (after calls).take call := by
      rw [after, List.foldl_append]
      rfl
    rw [step]
    cases call with
    | push ns =>
      rw [pushed_concat calls (.push ns) nofun]
      exact ih.push ns
    | median =>
      have same := pushed_concat calls .median nofun
      rw [same.trans (List.append_nil _)]
      exact ih.median
    | size =>
      have same := pushed_concat calls .size nofun
      rw [same.trans (List.append_nil _)]
      exact ih
    | clear =>
      rw [pushed_concat_clear]
      exact .empty

/-- A buffer after any calls that push words. It has what was pushed since it was last cleared,
in that order. Its median is none for no samples, and else what stands in the middle of them in
ascending order, whatever the order they came in. It lies among the samples, and the mean of
two of them is the same in words of twice the width. -/
theorem median_after (calls : List Call) (words : ∀ ns, .push ns ∈ calls → ns ≤ wordMax) :
    let buffer := after calls
    let samples := pushed calls
    (buffer.samples.toList = samples ∧ buffer.size = samples.length) ∧
      (buffer.median.1 = none ↔ samples = []) ∧
      (∀ m, buffer.median.1 = some m ↔
        ∃ sorted, sorted.Perm samples ∧ sorted.Pairwise (· ≤ ·) ∧ IsMiddle sorted m) ∧
      (∀ others, (pushed others).Perm samples → (after others).median.1 = buffer.median.1) ∧
      (∀ m, buffer.median.1 = some m → m ≤ wordMax ∧ ∃ least greatest,
        samples.min? = some least ∧ samples.max? = some greatest ∧ least ≤ m ∧ m ≤ greatest) ∧
      ∀ low ∈ samples, ∀ high ∈ samples,
        ((BitVec.ofNat 128 low + BitVec.ofNat 128 high + 1#128) / 2#128).toNat =
          (low + high + 1) / 2 := by
  intro buffer samples
  have remembers : buffer.Remembers samples := remembers_after calls
  have bounded : ∀ ns ∈ samples, ns ≤ wordMax := by
    intro ns member
    obtain ⟨call, recent, sampled⟩ := List.mem_filterMap.1 member
    have asked := (List.rtakeWhile_suffix _ calls).subset recent
    cases call with
    | push pushed => exact words ns (Option.some.inj sampled ▸ asked)
    | median | size | clear => cases sampled
  rw [remembers.median_eq]
  refine ⟨⟨remembers.stored, ?_⟩, median?_eq_none_iff, fun m => median?_eq_some_iff, ?_, ?_, ?_⟩
  · rw [← remembers.stored]
    exact Array.length_toList.symm
  · intro others shuffled
    rw [(remembers_after others).median_eq]
    exact median?_perm shuffled
  · intro m known
    obtain ⟨low, lowHere, high, highHere, above, below⟩ := median?_between known
    obtain ⟨least, isLeast⟩ := Option.isSome_iff_exists.1
      (List.isSome_min?_of_mem lowHere)
    obtain ⟨greatest, isGreatest⟩ := Option.isSome_iff_exists.1
      (List.isSome_max?_of_mem highHere)
    refine ⟨Nat.le_trans below (bounded high highHere), least, greatest, isLeast, isGreatest, ?_,
      ?_⟩
    · exact Nat.le_trans ((List.min?_eq_some_iff.1 isLeast).2 low lowHere) above
    · exact Nat.le_trans below ((List.max?_eq_some_iff.1 isGreatest).2 high highHere)
  · intro low lowHere high highHere
    exact mean_words (bounded low lowHere) (bounded high highHere)

/-- The two largest words, after a sample that was cleared away with the median it had. -/
theorem median_after_largestWords :
    let calls : List Call :=
      [.push 7, .median, .clear, .push wordMax, .median, .push (wordMax - 1), .size]
    (∀ ns, .push ns ∈ calls → ns ≤ wordMax) ∧ pushed calls = [wordMax, wordMax - 1] ∧
      (after calls).median.1 = some wordMax := by
  intro calls
  have words : ∀ ns, .push ns ∈ calls → ns ≤ wordMax := by
    intro ns asked
    have cases : ns = 7 ∨ ns = wordMax ∨ ns = wordMax - 1 := by simpa [calls] using asked
    have bound : 7 ≤ wordMax := by decide
    omega
  refine ⟨words, rfl, ((median_after calls words).2.2.1 wordMax).2 ?_⟩
  exact ⟨[wordMax - 1, wordMax], .swap .., by decide,
    @IsMiddle.two [] [] _ _ _ rfl (by decide) (by decide)⟩

end LatencyBuffer

end Rebalance
