import Mathlib.Data.List.DropRight
import Rebalance.Gate.Basic
import Rebalance.Proofs.Binary64

/-!
What a gate has made of all the calls to it. Its window holds the last estimates that were no
outliers, and its count says how many verdicts were holds since the last grant, whatever the
calls were. So the ruling on a call follows from the rulings before it, from the estimate and
from what the optimizer answers.
-/

namespace Rebalance

section
variable {α : Type}

def Verdict.isGrant : Verdict α → Bool
  | repartition .. => true
  | _ => false

def Verdict.isHold : Verdict α → Bool
  | hold _ => true
  | _ => false

def Verdict.reason? : Verdict α → Option Reason
  | repartition reason _ => some reason
  | _ => none

/-- A call to the gate: the estimate of the epoch, and the answer that the optimizer gives if it
is asked. -/
structure Call (α : Type) where
  estimate : α
  answer : Option (Solution α)

def Call.solve (call : Call α) : StateM Nat (Option (Solution α)) := do
  modify (· + 1)
  return call.answer

structure Ruling (α : Type) where
  estimate : α
  verdict : Verdict α
  /-- How often the optimizer was run. -/
  runs : Nat

def Ruling.isOutlier (ruling : Ruling α) : Bool := ruling.verdict.reason? = some .outlier

def usualEstimates (log : List (Ruling α)) : List α :=
  (log.filter (!·.isOutlier)).map (·.estimate)

def holdsSinceGrant (log : List (Ruling α)) : Nat :=
  (log.rtakeWhile (!·.verdict.isGrant)).countP (·.verdict.isHold)

theorem usualEstimates_concat (log : List (Ruling α)) (ruling : Ruling α) :
    usualEstimates (log ++ [ruling]) =
      usualEstimates log ++ if ruling.isOutlier then [] else [ruling.estimate] := by
  unfold usualEstimates
  rw [List.filter_append, List.map_append]
  cases far : ruling.isOutlier with
  | true =>
    rw [List.filter_cons_of_neg (by simp [far])]
    rfl
  | false =>
    rw [List.filter_cons_of_pos (by simp [far])]
    rfl

theorem holdsSinceGrant_concat (log : List (Ruling α)) (ruling : Ruling α) :
    holdsSinceGrant (log ++ [ruling]) =
      if ruling.verdict.isGrant then 0
      else holdsSinceGrant log + ruling.verdict.isHold.toNat := by
  unfold holdsSinceGrant
  rw [List.rtakeWhile_concat]
  cases granted : ruling.verdict.isGrant with
  | true => rfl
  | false =>
    simp only [Bool.not_false, if_true, Bool.false_eq_true, if_false, List.countP_append,
      List.countP_singleton]
    cases ruling.verdict.isHold with
    | true | false => rfl

theorem History.values_push {history : History α} {past : List α}
    (room : 0 < history.capacity) (last : history.values = past.rtake history.capacity)
    (value : α) :
    (history.push value).values = (past ++ [value]).rtake history.capacity := by
  obtain ⟨others, capacity⟩ := Nat.exists_eq_add_one.2 room
  rw [capacity] at last ⊢
  have size : history.values.length = min (others + 1) past.length := by
    rw [last, List.rtake, List.length_drop]
    omega
  have pushed : (history.push value).values =
      (if history.values.length = others + 1 then history.values.drop 1
        else history.values) ++ [value] := by
    rw [← capacity]
    rfl
  rw [pushed, List.rtake_concat_succ, size, last, List.rtake, List.rtake]
  congr 1
  split
  · rw [List.drop_drop]
    congr 1
    omega
  · congr 1
    omega

structure Gate.Keeps (config : GateConfig α) (log : List (Ruling α)) (gate : Gate α) :
    Prop where
  settings : gate.config = config
  capacity : gate.history.capacity = max config.historyLength 1
  window : gate.history.values = (usualEstimates log).rtake (max config.historyLength 1)
  holds : gate.holds = holdsSinceGrant log

namespace Gate.Keeps

theorem new (config : GateConfig α) : Keeps config [] (.new config) where
  settings := rfl
  capacity := rfl
  window := (List.rtake_nil _).symm
  holds := rfl

variable {config : GateConfig α} {log : List (Ruling α)} {gate : Gate α}

theorem room (kept : Keeps config log gate) : 0 < gate.history.capacity := by
  rw [kept.capacity]
  exact Nat.lt_of_lt_of_le Nat.one_pos (Nat.le_max_right ..)

/-- An estimate that is no outlier is entered in the window as in the log. -/
theorem push (kept : Keeps config log gate) {ruling : Ruling α}
    (usual : ruling.isOutlier = false) :
    (gate.history.push ruling.estimate).values =
      (usualEstimates (log ++ [ruling])).rtake (max config.historyLength 1) := by
  have window := kept.window
  rw [usualEstimates_concat, usual]
  rw [← kept.capacity] at window ⊢
  exact History.values_push kept.room window ruling.estimate

end Gate.Keeps

end

section
variable {α : Type} [Scalar α]

def meanOf (values : List α) : α := Scalar.sum values / Scalar.ofCount values.length

def deviationOf (values : List α) : α :=
  let squares := values.map fun value => (value - meanOf values) * (value - meanOf values)
  Scalar.sqrt (Scalar.sum squares / Scalar.ofCount values.length)

namespace Gate

theorem isOutlier_iff {gate : Gate α} (room : 0 < gate.history.capacity) (current : α) :
    gate.isOutlier current = true ↔ gate.history.values.length = gate.history.capacity ∧
      Scalar.lt (meanOf gate.history.values + gate.config.outlierDeviations *
        deviationOf gate.history.values) current = true := by
  unfold isOutlier outlierLimit History.isFull
  by_cases full : gate.history.values.length = gate.history.capacity
  · have filled : gate.history.values.isEmpty = false := by
      rw [List.isEmpty_eq_false_iff, ← List.length_pos_iff, full]
      exact room
    simp [full, History.deviation, History.mean, filled, meanOf, deviationOf]
  · simp [full]

theorem grounds_ne_outlier (gate : Gate α) (current estimate : α) :
    gate.grounds current estimate ≠ some .outlier := by
  unfold grounds
  split
  · nofun
  · split
    · nofun
    · nofun

theorem grounds_eq_starvation_iff {gate : Gate α} {current estimate : α} :
    gate.grounds current estimate = some .starvation ↔
      Scalar.le estimate (gate.gainThreshold current) = false ∧
        Scalar.lt estimate current = true ∧ gate.config.starvationEpochs ≤ gate.holds := by
  unfold grounds
  cases Scalar.le estimate (gate.gainThreshold current) with
  | true | false => simp

def rule (gate : Gate α) (call : Call α) : Ruling α × Gate α :=
  let outcome := ((gate.evaluate call.estimate call.solve).run 0).run
  (⟨call.estimate, outcome.1.1, outcome.2⟩, outcome.1.2)

def following : Gate α → List (Call α) → Gate α
  | gate, [] => gate
  | gate, call :: rest => following (gate.rule call).2 rest

def rulings : Gate α → List (Call α) → List (Ruling α)
  | _, [] => []
  | gate, call :: rest => (gate.rule call).1 :: rulings (gate.rule call).2 rest

inductive Ruled (gate : Gate α) (call : Call α) : Ruling α × Gate α → Prop
  | outlier (far : gate.isOutlier call.estimate = true) :
      Ruled gate call (⟨call.estimate, .repartition .outlier none, 0⟩, { gate with holds := 0 })
  | infeasible (usual : gate.isOutlier call.estimate = false) (unanswered : call.answer = none) :
      Ruled gate call (⟨call.estimate, .infeasible, 1⟩,
        { gate with history := gate.history.push call.estimate })
  | granted (usual : gate.isOutlier call.estimate = false) (candidate : Solution α)
      (answered : call.answer = some candidate) (reason : Reason)
      (grounds : gate.grounds call.estimate candidate.estimate = some reason) :
      Ruled gate call (⟨call.estimate, .repartition reason (some candidate), 1⟩,
        { gate with history := gate.history.push call.estimate, holds := 0 })
  | held (usual : gate.isOutlier call.estimate = false) (candidate : Solution α)
      (answered : call.answer = some candidate)
      (groundless : gate.grounds call.estimate candidate.estimate = none) :
      Ruled gate call (⟨call.estimate, .hold candidate, 1⟩,
        { gate with history := gate.history.push call.estimate, holds := gate.holds + 1 })

theorem ruled_rule (gate : Gate α) (call : Call α) : Ruled gate call (gate.rule call) := by
  unfold rule evaluate
  cases far : gate.isOutlier call.estimate with
  | true => exact .outlier far
  | false =>
    let judging : Gate α := { gate with history := gate.history.push call.estimate }
    change Ruled gate call (⟨call.estimate, (judging.judge call.estimate call.answer).1, 1⟩,
      (judging.judge call.estimate call.answer).2)
    cases answered : call.answer with
    | none => exact .infeasible far answered
    | some candidate =>
      unfold judge
      cases grounds : judging.grounds call.estimate candidate.estimate with
      | none =>
        simpa only [grounds] using Ruled.held far candidate answered grounds
      | some reason =>
        simpa only [grounds] using Ruled.granted far candidate answered reason grounds

section
variable {config : GateConfig α} {log : List (Ruling α)} {gate : Gate α} {call : Call α}

theorem isOutlier_rule (gate : Gate α) (call : Call α) :
    (gate.rule call).1.isOutlier = gate.isOutlier call.estimate := by
  have ruled := gate.ruled_rule call
  generalize gate.rule call = outcome at ruled ⊢
  cases ruled with
  | outlier far => exact far.symm
  | infeasible usual | held usual => exact usual.symm
  | granted usual candidate _ reason grounds =>
    have near : reason ≠ .outlier := fun same => gate.grounds_ne_outlier _ _ (same ▸ grounds)
    rw [usual]
    simpa [Ruling.isOutlier, Verdict.reason?] using near

theorem runs_rule (gate : Gate α) (call : Call α) :
    (gate.rule call).1.runs = if (gate.rule call).1.isOutlier then 0 else 1 := by
  rw [isOutlier_rule]
  have ruled := gate.ruled_rule call
  generalize gate.rule call = outcome at ruled ⊢
  cases ruled with
  | outlier far => rw [if_pos far]
  | infeasible usual | granted usual | held usual => rw [if_neg (Bool.eq_false_iff.1 usual)]

theorem config_rule (gate : Gate α) (call : Call α) :
    (gate.rule call).2.config = gate.config := by
  have ruled := gate.ruled_rule call
  generalize gate.rule call = outcome at ruled ⊢
  cases ruled with
  | outlier | infeasible | granted | held => rfl

theorem history_rule (gate : Gate α) (call : Call α) :
    (gate.rule call).2.history =
      if (gate.rule call).1.isOutlier then gate.history else gate.history.push call.estimate := by
  rw [isOutlier_rule]
  have ruled := gate.ruled_rule call
  generalize gate.rule call = outcome at ruled ⊢
  cases ruled with
  | outlier far => rw [if_pos far]
  | infeasible usual | granted usual | held usual => rw [if_neg (Bool.eq_false_iff.1 usual)]

theorem holds_rule (gate : Gate α) (call : Call α) :
    (gate.rule call).2.holds =
      if (gate.rule call).1.verdict.isGrant then 0
      else gate.holds + (gate.rule call).1.verdict.isHold.toNat := by
  have ruled := gate.ruled_rule call
  generalize gate.rule call = outcome at ruled ⊢
  cases ruled with
  | outlier | infeasible | granted | held => rfl

theorem starves_rule_iff : (gate.rule call).1.verdict.reason? = some .starvation ↔
    (gate.rule call).1.isOutlier = false ∧ ∃ candidate, call.answer = some candidate ∧
      gate.grounds call.estimate candidate.estimate = some .starvation := by
  rw [isOutlier_rule]
  have ruled := gate.ruled_rule call
  generalize gate.rule call = outcome at ruled ⊢
  cases ruled with
  | outlier far => simp [Verdict.reason?, far]
  | infeasible usual unanswered => simp [Verdict.reason?, unanswered]
  | granted usual candidate answered reason grounds =>
    simp [Verdict.reason?, usual, answered, grounds]
  | held usual candidate answered groundless =>
    simp [Verdict.reason?, answered, groundless]

/-- A call is entered in the log and in the gate alike. -/
theorem Keeps.rule (kept : Keeps config log gate) (call : Call α) :
    Keeps config (log ++ [(gate.rule call).1]) (gate.rule call).2 := by
  refine ⟨(gate.config_rule call).trans kept.settings, ?_, ?_, ?_⟩
  · rw [history_rule]
    split
    · exact kept.capacity
    · exact kept.capacity
  · rw [history_rule]
    cases judged : (gate.rule call).1.isOutlier with
    | true =>
      rw [usualEstimates_concat, judged, if_pos rfl, if_pos rfl, List.append_nil]
      exact kept.window
    | false => exact kept.push judged
  · rw [holdsSinceGrant_concat, holds_rule, kept.holds]

theorem Keeps.following (kept : Keeps config log gate) (calls : List (Call α)) :
    Keeps config (log ++ gate.rulings calls) (gate.following calls) := by
  induction calls generalizing log gate with
  | nil =>
    rw [rulings, List.append_nil]
    exact kept
  | cons call calls ih =>
    rw [rulings, List.append_cons]
    exact ih (kept.rule call)

theorem keeps_following (config : GateConfig α) (calls : List (Call α)) :
    Keeps config ((new config).rulings calls) ((new config).following calls) := by
  have kept := (Keeps.new config).following calls
  rwa [List.nil_append] at kept

end

end Gate

end

namespace Gate

/-- A gate after any calls, and its ruling on one more. The window and the count are those of
the rulings so far. A full window makes an outlier of what is far above its mean, and only what
is none is put to the optimizer. Starvation is a reason after enough holds, for a candidate that
the minimum gain leaves out and that is better all the same. -/
theorem ruling_of_past (config : GateConfig Float) (calls : List (Call Float))
    (call : Call Float) :
    let gate := (new config).following calls
    let log := (new config).rulings calls
    let window := (usualEstimates log).rtake (max config.historyLength 1)
    let ruling := (gate.rule call).1
    let threshold := gate.gainThreshold call.estimate
    (gate.history.values = window ∧ gate.holds = holdsSinceGrant log) ∧
      (ruling.isOutlier = true ↔ window.length = max config.historyLength 1 ∧
        meanOf window + config.outlierDeviations * deviationOf window < call.estimate) ∧
      ruling.runs = (if ruling.isOutlier then 0 else 1) ∧
      (ruling.verdict.reason? = some .starvation ↔
        ruling.isOutlier = false ∧ ∃ candidate, call.answer = some candidate ∧
          config.starvationEpochs ≤ holdsSinceGrant log ∧ candidate.estimate < call.estimate ∧
          (threshold < candidate.estimate ∨ threshold.isNaN = true)) := by
  intro gate log window ruling threshold
  have kept : Keeps config log gate := keeps_following config calls
  refine ⟨⟨kept.window, kept.holds⟩, ?_, gate.runs_rule call, ?_⟩
  · rw [isOutlier_rule, isOutlier_iff kept.room, kept.capacity, kept.window, kept.settings]
    exact and_congr_right fun _ => decide_eq_true_iff
  · rw [starves_rule_iff]
    refine and_congr_right fun _ => exists_congr fun candidate => and_congr_right fun _ => ?_
    rw [grounds_eq_starvation_iff, Binary64.le_eq_false_iff, kept.settings, kept.holds]
    have below_iff : Scalar.lt candidate.estimate call.estimate = true ↔
        candidate.estimate < call.estimate := decide_eq_true_iff
    rw [below_iff]
    constructor
    · rintro ⟨above | unordered | unlimited, below, starved⟩
      · exact ⟨starved, below, .inl above⟩
      · rw [(Binary64.isNaN_of_lt below).1] at unordered
        cases unordered
      · exact ⟨starved, below, .inr unlimited⟩
    · rintro ⟨starved, below, above | unlimited⟩
      · exact ⟨.inl above, below, starved⟩
      · exact ⟨.inr (.inr unlimited), below, starved⟩

/-- Nothing of an infinite estimate is left by a minimum gain of all of it, which makes the
threshold no number. A candidate is then granted without being above it. -/
theorem starves_without_threshold :
    let config : GateConfig Float :=
      { historyLength := 3, outlierDeviations := 2, minGainPercent := 100, starvationEpochs := 0 }
    let candidate : Solution Float :=
      { placement := .empty, estimate := 1, moved := 1, exhaustive := true, nodes := 1 }
    let call : Call Float := ⟨1 / 0, some candidate⟩
    ((new config).rule call).1.verdict.reason? = some .starvation ∧
      ¬ (new config).gainThreshold call.estimate < candidate.estimate := by
  decide +kernel

end Gate

end Rebalance
