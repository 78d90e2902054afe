import DiagramDoc.Proofs.Text.Trim
import DiagramDoc.Table.Basic

/-!
# Reading tables back

A cell is read back whatever it holds: quotes are doubled between quotes, and nothing else needs
them. So the text of a table reads back as its rows, if there are any and none is empty.
-/

namespace DiagramDoc.Table

open Text

def prepend (t : Text) (rows : List (List Text)) : List (List Text) := t.foldr push rows

theorem prepend_cell (t cell : Text) (cells : List Text) (rows : List (List Text)) :
    prepend t ((cell :: cells) :: rows) = ((t ++ cell) :: cells) :: rows := by
  induction t with
  | nil => rfl
  | cons c t ih =>
    show push c (prepend t _) = _
    rw [ih]
    rfl

/-- A cell ends before a comma, before a line feed and at the end. -/
def EndsCell (rest : Text) : Prop := ∀ c ∈ rest.head?, c = ',' ∨ c = '\n'

section Cell

variable {rest : Text}

theorem readFrom?_of_endsCell (h : EndsCell rest) {mode : Mode} (hm : mode ≠ .quoted) :
    readFrom? mode rest = readFrom? .start rest := by
  match rest with
  | [] => cases mode <;> first | rfl | exact absurd rfl hm
  | c :: rest =>
    rcases h c rfl with rfl | rfl
    · cases mode <;> first | rfl | exact absurd rfl hm
    · cases mode <;> first | rfl | exact absurd rfl hm

theorem readFrom?_cons {mode : Mode} (hm : mode = .start ∨ mode = .plain) {c : Char}
    (hq : c ≠ '"') (hc : c ≠ ',') (hn : c ≠ '\n') (rest : Text) :
    readFrom? mode (c :: rest) = (readFrom? .plain rest).map (push c) := by
  rcases hm with rfl | rfl
  · rw [readFrom?, if_neg hq] <;> simp [hq, hc, hn]
  · rw [readFrom?, if_neg hq] <;> simp [hq, hc, hn]

theorem readFrom?_bare (he : EndsCell rest) {mode : Mode} (hm : mode = .start ∨ mode = .plain)
    {cell : Text} (h : needsQuotes cell = false) :
    readFrom? mode (cell ++ rest) = (readFrom? .start rest).map (prepend cell) := by
  -- Behind its first character a cell is plain, so the induction is for both modes.
  induction cell generalizing mode with
  | nil =>
    have hne : mode ≠ .quoted := by rcases hm with rfl | rfl <;> decide
    rw [List.nil_append, readFrom?_of_endsCell he hne]
    exact Option.map_id'.symm
  | cons c cell ih =>
    simp only [needsQuotes, List.any_cons, Bool.or_eq_false_iff, beq_eq_false_iff_ne] at h
    obtain ⟨⟨⟨hq, hc⟩, hn⟩, hcell⟩ := h
    rw [List.cons_append, readFrom?_cons hm hq hc hn, ih (.inr rfl) hcell, Option.map_map]
    rfl

theorem readFrom?_quoted (he : EndsCell rest) (cell : Text) :
    readFrom? .quoted (doubleQuotes cell ++ '"' :: rest) =
      (readFrom? .start rest).map (prepend cell) := by
  induction cell with
  | nil =>
    show readFrom? .closing rest = _
    rw [readFrom?_of_endsCell he (by decide)]
    exact Option.map_id'.symm
  | cons c cell ih =>
    unfold doubleQuotes at ih ⊢
    rw [List.flatMap_cons, List.append_assoc]
    by_cases hc : c = '"'
    · subst hc
      -- The first quote of the two seems to close the cell, the second tells that it does not.
      rw [if_pos rfl, List.cons_append, List.singleton_append, readFrom?, if_pos rfl, readFrom?,
        ih, Option.map_map]
      rfl
    · rw [if_neg hc, List.singleton_append, readFrom?, if_neg hc, ih, Option.map_map]
      rfl

theorem readFrom?_cellText (he : EndsCell rest) (cell : Text) :
    readFrom? .start (cellText cell ++ rest) = (readFrom? .start rest).map (prepend cell) := by
  unfold cellText
  split
  · rw [List.cons_append, List.append_assoc, List.singleton_append]
    exact readFrom?_quoted he cell
  · next h => exact readFrom?_bare he (.inl rfl) (eq_false_of_ne_true h)

end Cell

/-- A row ends before a line feed and at the end, and the rows behind it follow. -/
theorem readFrom?_rowText {rest : Text} {rows : Option (List (List Text))} (he : EndsCell rest)
    (hr : readFrom? .start rest = rows.map openRow) (cell : Text) (cells : List Text) :
    readFrom? .start (rowText (cell :: cells) ++ rest) = rows.map ((cell :: cells) :: ·) := by
  unfold rowText
  induction cells generalizing cell with
  | nil =>
    rw [List.map_singleton, join_singleton, readFrom?_cellText he, hr, Option.map_map]
    refine Option.map_congr fun tail _ => ?_
    show prepend cell (([] :: []) :: tail) = _
    rw [prepend_cell, List.append_nil]
  | cons next cells ih =>
    have hcomma : EndsCell (',' :: (join [','] ((next :: cells).map cellText) ++ rest)) :=
      fun c hc => .inl (Option.mem_some_iff.mp hc).symm
    rw [List.map_cons, List.map_cons, join_cons_cons, ← List.map_cons, List.append_assoc,
      List.singleton_append, List.cons_append, readFrom?_cellText hcomma]
    show ((readFrom? .start _).map openCell).map (prepend cell) = _
    rw [ih, Option.map_map, Option.map_map]
    refine Option.map_congr fun tail _ => ?_
    show prepend cell (([] :: next :: cells) :: tail) = _
    rw [prepend_cell, List.append_nil]

theorem read?_write {rows : List (List Text)} (hne : rows ≠ []) (h : ∀ row ∈ rows, row ≠ []) :
    read? (write rows) = some rows := by
  unfold read? write
  induction rows with
  | nil => exact absurd rfl hne
  | cons row rows ih =>
    obtain ⟨hrow, hrows⟩ := List.forall_mem_cons.mp h
    obtain ⟨cell, cells, rfl⟩ := List.exists_cons_of_ne_nil hrow
    cases rows with
    | nil =>
      have hend : EndsCell [] := fun c hc => absurd hc (by simp)
      have hread : readFrom? .start (rowText (cell :: cells) ++ []) =
          (some []).map ((cell :: cells) :: ·) := readFrom?_rowText hend rfl cell cells
      rw [List.append_nil] at hread
      rw [List.map_singleton, join_singleton, hread]
      rfl
    | cons next rows =>
      have hfeed : EndsCell ('\n' :: join ['\n'] ((next :: rows).map rowText)) :=
        fun c hc => .inr (Option.mem_some_iff.mp hc).symm
      rw [List.map_cons, List.map_cons, join_cons_cons, ← List.map_cons, List.singleton_append,
        readFrom?_rowText hfeed rfl, ih (List.cons_ne_nil _ _) hrows]
      rfl

end DiagramDoc.Table
