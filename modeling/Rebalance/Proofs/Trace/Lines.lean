import Rebalance.Proofs.Text.Utf8
import Rebalance.Trace.File

/-!
The lines of a file. Each goes up to a line feed and loses one carriage return before it, so rows
without either come back when each is ended by a line feed.
-/

namespace Rebalance.Trace

def IsRow (row : List UInt8) : Prop := lineFeed ∉ row ∧ carriageReturn ∉ row

theorem isRow_encode {text : List Char} (printed : Utf8.Printed text) :
    IsRow (Utf8.encode text) := by
  constructor <;> intro member <;>
    exact absurd (Utf8.le_toNat_of_mem_encode printed member) (by decide)

def chomp (row : List UInt8) : List UInt8 := (dropReturn row.reverse).reverse

theorem chomp_append_return (row : List UInt8) : chomp (row ++ [carriageReturn]) = row := by
  rw [chomp, List.reverse_append, List.reverse_singleton, List.singleton_append, dropReturn,
    if_pos rfl, List.reverse_reverse]

theorem eq_chomp_or (row : List UInt8) : row = chomp row ∨ row = chomp row ++ [carriageReturn] := by
  rcases List.eq_nil_or_concat' row with rfl | ⟨front, b, rfl⟩
  · exact .inl rfl
  · by_cases ended : b = carriageReturn
    · subst ended
      exact .inr (congrArg (· ++ [carriageReturn]) (chomp_append_return front).symm)
    · left
      rw [chomp, List.reverse_append, List.reverse_singleton, List.singleton_append, dropReturn,
        if_neg ended, List.reverse_cons, List.reverse_reverse]

theorem IsRow.chomp_eq {row : List UInt8} (solid : IsRow row) : chomp row = row := by
  rcases eq_chomp_or row with same | ended
  · exact same.symm
  · exact absurd (ended ▸ List.mem_append_right _ List.mem_cons_self) solid.2

theorem splitOnto_solid (done : List (List UInt8)) (line rest : List UInt8) {row : List UInt8}
    (solid : lineFeed ∉ row) :
    splitOnto done line (row ++ rest) = splitOnto done (row.reverse ++ line) rest := by
  induction row generalizing line with
  | nil => rfl
  | cons b row ih =>
    rw [List.mem_cons, not_or] at solid
    rw [List.cons_append, splitOnto, if_neg (Ne.symm solid.1), ih _ solid.2, List.reverse_cons,
      List.append_assoc, List.singleton_append]

theorem splitOnto_eq (done : List (List UInt8)) (line bytes : List UInt8) :
    splitOnto done line bytes = done.reverse ++ splitOnto [] line bytes := by
  induction bytes generalizing done line with
  | nil => cases line <;> simp [splitOnto]
  | cons b rest ih =>
    rw [splitOnto, splitOnto]
    split
    · rw [ih (_ :: done), ih [_], List.reverse_cons, List.reverse_singleton, List.append_assoc]
    · exact ih done (b :: line)

theorem lines_cons {row : List UInt8} (solid : lineFeed ∉ row) (rest : List UInt8) :
    lines (row ++ lineFeed :: rest) = chomp row :: lines rest := by
  rw [lines, splitOnto_solid _ _ _ solid, splitOnto, if_pos rfl, splitOnto_eq, List.append_nil]
  rfl

theorem lines_solid {row : List UInt8} (solid : lineFeed ∉ row) :
    lines row = if row.isEmpty then [] else [row] := by
  have split := splitOnto_solid [] [] [] solid
  rw [List.append_nil, List.append_nil, splitOnto] at split
  rw [lines, split, List.isEmpty_reverse, List.reverse_reverse]
  split <;> rfl

/-- After line feeds the lines go on as if nothing had been before them. -/
theorem lines_rows_append {rows : List (List UInt8)} (solid : ∀ row ∈ rows, lineFeed ∉ row)
    (rest : List UInt8) :
    lines (rows.flatMap (· ++ [lineFeed]) ++ rest) = rows.map chomp ++ lines rest := by
  induction rows with
  | nil => rfl
  | cons row rows ih =>
    obtain ⟨first, others⟩ := List.forall_mem_cons.1 solid
    rw [List.flatMap_cons, List.append_assoc, List.append_assoc, List.singleton_append,
      lines_cons first, ih others, List.map_cons, List.cons_append]

theorem lines_ended {rows : List (List UInt8)} (solid : ∀ row ∈ rows, lineFeed ∉ row) :
    lines (rows.flatMap (· ++ [lineFeed])) = rows.map chomp := by
  have split := lines_rows_append solid []
  rwa [List.append_nil, lines_solid List.not_mem_nil, List.isEmpty_nil, if_pos rfl,
    List.append_nil] at split

theorem lines_rows {rows : List (List UInt8)} (each : ∀ row ∈ rows, IsRow row) :
    lines (rows.flatMap (· ++ [lineFeed])) = rows := by
  have kept : rows.map chomp = rows :=
    (List.map_congr_left fun row member => (each row member).chomp_eq).trans (List.map_id rows)
  rw [lines_ended fun row member => (each row member).1, kept]

/-- Any bytes are some lines up to their line feeds and a line without one. -/
theorem exists_rows (bytes : List UInt8) :
    ∃ (rows : List (List UInt8)) (rest : List UInt8),
      (∀ row ∈ rows, lineFeed ∉ row) ∧ lineFeed ∉ rest ∧
        bytes = rows.flatMap (· ++ [lineFeed]) ++ rest := by
  induction bytes with
  | nil => exact ⟨[], [], List.forall_mem_nil _, List.not_mem_nil, rfl⟩
  | cons b bytes ih =>
    obtain ⟨rows, rest, solid, last, rfl⟩ := ih
    by_cases ended : b = lineFeed
    · subst ended
      exact ⟨[] :: rows, rest, List.forall_mem_cons.2 ⟨List.not_mem_nil, solid⟩, last, rfl⟩
    · cases rows with
      | nil =>
        exact ⟨[], b :: rest, solid, List.not_mem_cons_of_ne_of_not_mem (Ne.symm ended) last, rfl⟩
      | cons row rows =>
        obtain ⟨first, others⟩ := List.forall_mem_cons.1 solid
        have begun := List.not_mem_cons_of_ne_of_not_mem (Ne.symm ended) first
        exact ⟨(b :: row) :: rows, rest, List.forall_mem_cons.2 ⟨begun, others⟩, last, rfl⟩

theorem count_rows {rows : List (List UInt8)} (solid : ∀ row ∈ rows, lineFeed ∉ row) :
    (rows.flatMap (· ++ [lineFeed])).count lineFeed = rows.length := by
  induction rows with
  | nil => rfl
  | cons row rows ih =>
    obtain ⟨first, others⟩ := List.forall_mem_cons.1 solid
    rw [List.flatMap_cons, List.count_append, List.count_append, List.count_eq_zero.2 first,
      List.count_singleton_self, ih others, List.length_cons]
    omega

def IsEnded (bytes : List UInt8) : Prop := bytes = [] ∨ bytes.getLast? = some lineFeed

theorem isEnded_append (front : List UInt8) : IsEnded (front ++ [lineFeed]) :=
  .inr List.getLast?_concat

section
variable {front : List UInt8}

theorem IsEnded.exists_rows (ended : IsEnded front) :
    ∃ rows : List (List UInt8), (∀ row ∈ rows, lineFeed ∉ row) ∧
      front = rows.flatMap (· ++ [lineFeed]) := by
  obtain ⟨rows, rest, solid, last, rfl⟩ := Rebalance.Trace.exists_rows front
  refine ⟨rows, solid, ?_⟩
  rcases ended with none | feed
  · rw [(List.append_eq_nil_iff.1 none).1, (List.append_eq_nil_iff.1 none).2, List.append_nil]
  · cases rest with
    | nil => exact List.append_nil _
    | cons b rest =>
      rw [List.getLast?_append_of_ne_nil _ (List.cons_ne_nil b rest)] at feed
      exact absurd (List.mem_of_getLast? feed) last

theorem exists_isEnded (bytes : List UInt8) :
    ∃ front row, IsEnded front ∧ lineFeed ∉ row ∧ bytes = front ++ row := by
  obtain ⟨rows, rest, solid, last, same⟩ := Rebalance.Trace.exists_rows bytes
  refine ⟨rows.flatMap (· ++ [lineFeed]), rest, ?_, last, same⟩
  rcases List.eq_nil_or_concat' rows with rfl | ⟨rows, row, rfl⟩
  · exact .inl rfl
  · rw [List.flatMap_append, List.flatMap_singleton, ← List.append_assoc]
    exact isEnded_append _

theorem IsEnded.lines_append (ended : IsEnded front) (back : List UInt8) :
    lines (front ++ back) = lines front ++ lines back := by
  obtain ⟨rows, solid, rfl⟩ := ended.exists_rows
  rw [lines_rows_append solid, lines_ended solid]

theorem IsEnded.length_lines (ended : IsEnded front) :
    (lines front).length = front.count lineFeed := by
  obtain ⟨rows, solid, rfl⟩ := ended.exists_rows
  rw [lines_ended solid, List.length_map, count_rows solid]

end

/-- Lines that each hold a record hold the records, whatever their numbers. -/
theorem readOnto_eq {rows : List (List UInt8)} {records : List Record}
    (held : List.Forall₂ (fun row record => ∀ number, readLine number row = .ok (some record))
      rows records) (done : List Record) (number : Nat) :
    readOnto done number rows = .ok (done.reverse ++ records) := by
  induction held generalizing done number with
  | nil => rw [readOnto, List.append_nil]
  | @cons row record rows records first held ih =>
    have later := ih (record :: done) (number + 1)
    rw [List.reverse_cons, List.append_assoc, List.singleton_append] at later
    rw [readOnto, first]
    exact later

end Rebalance.Trace
