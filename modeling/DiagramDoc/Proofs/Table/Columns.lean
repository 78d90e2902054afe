import Mathlib.Data.List.Basic
import DiagramDoc.Table.Basic

/-!
# The columns of a row

A row is filled from values for some of its columns, and a column is a name together with how many
columns of that name stand before it. So where names repeat, each value still stands in its own column.
-/

namespace DiagramDoc.Table

variable {names : List Text}

/-- A place among names is that of a column: it holds the name, and as many of it stand before. -/
def StandsAt (names : List Text) (column : Column) (place : Nat) : Prop :=
  names[place]? = some column.1 ∧ (names.take place).count column.1 = column.2

/-- A row that holds the values of some columns, each in its own place, and else nothing. -/
structure Filled (names : List Text) (cells : List (Column × Text)) (row : List Text) : Prop where
  width : row.length = names.length
  value : ∀ cell ∈ cells, ∃ place, StandsAt names cell.1 place ∧ row[place]? = some cell.2
  blank : ∀ column place, StandsAt names column place → column ∉ cells.map Prod.fst →
    row[place]? = some []

/-- Values are given to different columns, and all of these exist. -/
def Addressed (names : List Text) (cells : List (Column × Text)) : Prop :=
  (cells.map Prod.fst).Nodup ∧ ∀ column ∈ cells.map Prod.fst, column ∈ columns names

instance (names : List Text) (cells : List (Column × Text)) : Decidable (Addressed names cells) :=
  inferInstanceAs (Decidable (_ ∧ _))

/-! ### Places -/

theorem getElem?_columnsAfter (before names : List Text) (place : Nat) :
    (columnsAfter before names)[place]? = names[place]?.map fun name =>
      (name, (names.take place).count name + before.count name) := by
  -- The names that were passed count as well, so the induction is for any of them.
  induction names generalizing before place with
  | nil => rfl
  | cons head names ih =>
    cases place with
    | zero => simp [columnsAfter]
    | succ place =>
      rw [columnsAfter, List.getElem?_cons_succ, List.getElem?_cons_succ, ih]
      refine Option.map_congr fun name _ => ?_
      rw [List.take_succ_cons, List.count_cons, List.count_cons, Nat.add_right_comm, Nat.add_assoc]

theorem getElem?_columns {column : Column} {place : Nat} :
    (columns names)[place]? = some column ↔ StandsAt names column place := by
  unfold columns StandsAt
  rw [getElem?_columnsAfter, Option.map_eq_some_iff]
  constructor
  · rintro ⟨name, hname, rfl⟩
    exact ⟨hname, rfl⟩
  · rintro ⟨hname, hcount⟩
    exact ⟨column.1, hname, Prod.ext rfl hcount⟩

theorem length_columns (names : List Text) : (columns names).length = names.length := by
  suffices h : ∀ before, (columnsAfter before names).length = names.length from h []
  induction names with
  | nil => exact fun _ => rfl
  | cons head names ih => exact fun before => congrArg (· + 1) (ih (head :: before))

theorem StandsAt.idxOf_eq {name : Text} {place : Nat} (h : StandsAt names (name, 0) place) :
    names.idxOf name = place := by
  obtain ⟨hname, hcount⟩ := h
  induction names generalizing place with
  | nil => cases hname
  | cons head names ih =>
    cases place with
    | zero =>
      rw [List.getElem?_cons_zero, Option.some.injEq] at hname
      rw [hname, List.idxOf_cons_self]
    | succ place =>
      rw [List.take_succ_cons, List.count_cons, Nat.add_eq_zero_iff] at hcount
      have hne : head ≠ name := fun he => by simp [he] at hcount
      rw [List.idxOf_cons_ne _ hne, ih (by rwa [List.getElem?_cons_succ] at hname) hcount.1]

/-! ### Rows -/

theorem lookup_eq_some_of_mem {cells : List (Column × Text)} (hd : (cells.map Prod.fst).Nodup)
    {cell : Column × Text} (h : cell ∈ cells) : cells.lookup cell.1 = some cell.2 := by
  obtain ⟨before, after, rfl⟩ := List.append_of_mem h
  refine List.lookup_eq_some_iff.mpr ⟨before, after, rfl, fun other ho => bne_iff_ne.mpr ?_⟩
  rw [List.map_append, List.map_cons, List.nodup_append] at hd
  exact (hd.2.2 other.1 (List.mem_map_of_mem ho) cell.1 List.mem_cons_self).symm

theorem lookup_eq_none_of_not_mem {cells : List (Column × Text)} {column : Column}
    (h : column ∉ cells.map Prod.fst) : cells.lookup column = none :=
  List.lookup_eq_none_iff.mpr fun _ hc => bne_iff_ne.mpr fun he => h (he ▸ List.mem_map_of_mem hc)

theorem getElem?_row (cells : List (Column × Text)) {column : Column} {place : Nat}
    (h : StandsAt names column place) :
    (row names cells)[place]? = some ((cells.lookup column).getD []) := by
  unfold row
  rw [List.getElem?_map, getElem?_columns.mpr h, Option.map_some]

theorem filled_row {cells : List (Column × Text)} (h : Addressed names cells) :
    Filled names cells (row names cells) where
  width := by rw [row, List.length_map, length_columns]
  value cell hc := by
    obtain ⟨place, hplace⟩ := List.mem_iff_getElem?.mp (h.2 cell.1 (List.mem_map_of_mem hc))
    have hstands := getElem?_columns.mp hplace
    refine ⟨place, hstands, ?_⟩
    rw [getElem?_row cells hstands, lookup_eq_some_of_mem h.1 hc, Option.getD_some]
  blank column place hstands hnot := by
    rw [getElem?_row cells hstands, lookup_eq_none_of_not_mem hnot, Option.getD_none]

/-! ### One column of many rows -/

def field (names : List Text) (name : String) (row : List Text) : Text :=
  row[names.idxOf name.toList]?.getD []

theorem Filled.field_eq {cells : List (Column × Text)} {row : List Text} (h : Filled names cells row)
    {name : String} {value : Text} (hc : (first name, value) ∈ cells) :
    field names name row = value := by
  obtain ⟨place, hstands, hvalue⟩ := h.value _ hc
  rw [field, StandsAt.idxOf_eq hstands, hvalue, Option.getD_some]

end DiagramDoc.Table
