import DiagramDoc.Dialect.Marker
import DiagramDoc.Proofs.Dialect.Line
import DiagramDoc.Proofs.Dialect.ReadText

/-!
# The layout of a text

Only the lines that count are read, and only up to the blanks around them. So it does not matter how
lines are indented and ended, nor which empty lines and comments stand between them, marker lines
among these. A text is refused when it has no other lines.
-/

namespace DiagramDoc

/-- A text with a carriage return put before each line feed. -/
def Text.withReturns (t : Text) : Text := t.flatMap fun c => if c = '\n' then ['\r', '\n'] else [c]

namespace Dialect

open Text

/-- A line that says nothing: blanks, or a comment. -/
def Silent (line : Text) : Prop := trim line = [] ∨ ['%', '%'] <+: trim line

instance (line : Text) : Decidable (Silent line) := inferInstanceAs (Decidable (_ ∨ _))

/-- The lines of a text with other blanks around them, and with silent lines in between. -/
inductive Relaid : List Text → List Text → Prop where
  | nil : Relaid [] []
  | line (core before after before' after' : Text) {lines lines' : List Text} (hb : Gap before)
      (ha : Gap after) (hb' : Gap before') (ha' : Gap after') (h : Relaid lines lines') :
      Relaid ((before ++ core ++ after) :: lines) ((before' ++ core ++ after') :: lines')
  | inserted {line : Text} {lines lines' : List Text} (hs : Silent line) (h : Relaid lines lines') :
      Relaid lines (line :: lines')

/-! ### The lines that count -/

theorem isContent_eq_false {line : Text} :
    isContent line = false ↔ line = [] ∨ ['%', '%'] <+: line := by
  unfold isContent stripPrefix?
  rw [Bool.and_eq_false_iff, decide_eq_false_iff_not, not_not, Option.isNone_eq_false_iff]
  refine or_congr_right ⟨fun h => ?_, ?_⟩
  · obtain ⟨rest, hr⟩ := Option.isSome_iff_exists.mp h
    exact ⟨rest, (eq_append_of_stripPrefix? hr).symm⟩
  · rintro ⟨rest, rfl⟩
    exact Option.isSome_iff_exists.mpr ⟨rest, stripPrefix?_append _ _⟩

/-- The content of some lines, of which only those that are not silent are left. -/
def content (lines : List Text) : List Text := (lines.map trim).filter isContent

theorem content_cons_silent {line : Text} (h : Silent line) (lines : List Text) :
    content (line :: lines) = content lines := by
  have hc : ¬ isContent (trim line) = true := by simpa using isContent_eq_false.mpr h
  exact List.filter_cons_of_neg hc

theorem content_cons_congr {line line' : Text} {lines lines' : List Text}
    (hl : trim line = trim line') (h : content lines = content lines') :
    content (line :: lines) = content (line' :: lines') := by
  unfold content at h ⊢
  rw [List.map_cons, List.map_cons, List.filter_cons, List.filter_cons, hl, h]

theorem content_eq_nil {lines : List Text} : content lines = [] ↔ ∀ line ∈ lines, Silent line := by
  unfold content
  rw [List.filter_eq_nil_iff, List.forall_mem_map]
  simp only [Bool.not_eq_true, isContent_eq_false]
  exact Iff.rfl

theorem Relaid.content_eq {lines lines' : List Text} (h : Relaid lines lines') :
    content lines' = content lines := by
  induction h with
  | nil => rfl
  | line core before after before' after' hb ha hb' ha' _ ih =>
    exact content_cons_congr ((trim_gaps hb' ha' core).trans (trim_gaps hb ha core).symm) ih
  | inserted hs _ ih => rw [content_cons_silent hs, ih]

theorem Relaid.contentLines_eq {source text : Text}
    (h : Relaid (splitOn '\n' source) (splitOn '\n' text)) :
    contentLines text = contentLines source := by
  rw [Dialect.contentLines_eq, Dialect.contentLines_eq]
  exact h.content_eq

/-! ### Line ends -/

/-- The pieces between line feeds, when a carriage return stands before each of these. -/
def returned : List Text → List Text
  | [] => []
  | [last] => [last]
  | piece :: pieces => (piece ++ ['\r']) :: returned pieces

theorem splitOn_withReturns (t : Text) :
    splitOn '\n' (withReturns t) = returned (splitOn '\n' t) := by
  have hr : ('\r' : Char) ≠ '\n' := by decide
  induction t with
  | nil => rfl
  | cons c t ih =>
    obtain ⟨piece, pieces, hp⟩ := List.exists_cons_of_ne_nil (splitOn_ne_nil '\n' t)
    by_cases hc : c = '\n'
    · have hw : withReturns (c :: t) = '\r' :: '\n' :: withReturns t := by
        rw [hc]
        rfl
      rw [hw, splitOn_cons, if_neg hr, splitOn_cons, if_pos rfl, ih, splitOn_cons, if_pos hc, hp]
      rfl
    · have hw : withReturns (c :: t) = c :: withReturns t := by
        unfold withReturns
        rw [List.flatMap_cons, if_neg hc, List.singleton_append]
      rw [hw, splitOn_cons, if_neg hc, ih, splitOn_cons, if_neg hc, hp]
      cases pieces <;> rfl

theorem gap_nil : Gap [] := by decide

theorem gap_return : Gap ['\r'] := by decide

theorem Relaid.same (line : Text) {lines lines' : List Text} (h : Relaid lines lines') :
    Relaid (line :: lines) (line :: lines') := by
  have hline := Relaid.line line [] [] [] [] gap_nil gap_nil gap_nil gap_nil h
  rwa [List.nil_append, List.append_nil] at hline

theorem Relaid.refl (lines : List Text) : Relaid lines lines := by
  induction lines with
  | nil => exact .nil
  | cons line lines ih => exact ih.same line

theorem relaid_returned (pieces : List Text) : Relaid pieces (returned pieces) := by
  induction pieces with
  | nil => exact .nil
  | cons piece pieces ih =>
    cases pieces with
    | nil => exact Relaid.refl [piece]
    | cons next pieces =>
      have hline := Relaid.line piece [] [] [] ['\r'] gap_nil gap_nil gap_nil gap_return ih
      rwa [List.nil_append, List.append_nil] at hline

/-! ### Markers -/

theorem silent_marker {line : Text} (h : trim line = Marker.line) : Silent line := by
  refine .inr ?_
  rw [h]
  decide

theorem content_dropFirst (lines : List Text) : content (Marker.dropFirst lines) = content lines := by
  induction lines with
  | nil => rfl
  | cons line lines ih =>
    rw [Marker.dropFirst]
    split
    · next h => rw [content_cons_silent (silent_marker h)]
    · exact content_cons_congr rfl ih

theorem dropFirst_sublist (lines : List Text) : (Marker.dropFirst lines).Sublist lines := by
  induction lines with
  | nil => exact List.Sublist.refl _
  | cons line lines ih =>
    rw [Marker.dropFirst]
    split
    · exact List.sublist_cons_self line lines
    · exact ih.cons_cons line

theorem feed_not_mem_closeLines {pieces : List Text} (h : ∀ piece ∈ pieces, '\n' ∉ piece) :
    ∀ line ∈ closeLines pieces, '\n' ∉ line := by
  induction pieces with
  | nil => exact fun line hline => absurd hline List.not_mem_nil
  | cons piece pieces ih =>
    obtain ⟨hp, hrest⟩ := List.forall_mem_cons.mp h
    cases pieces with
    | nil =>
      rw [closeLines]
      split
      · exact fun line hline => absurd hline List.not_mem_nil
      · exact List.forall_mem_singleton.mpr hp
    | cons next pieces =>
      rw [closeLines]
      · refine List.forall_mem_cons.mpr ⟨fun hm => hp ?_, ih hrest⟩
        unfold dropReturn at hm
        split at hm
        · exact List.dropLast_subset _ hm
        · exact hm
      · intro he
        cases he

theorem contentLines_join {lines : List Text} (h : ∀ line ∈ lines, '\n' ∉ line) :
    contentLines (join ['\n'] lines) = content lines := by
  rw [contentLines_eq]
  cases lines with
  | nil => rfl
  | cons line lines =>
    rw [splitOn_join h]
    rfl

theorem contentLines_strip (source : Text) :
    contentLines (Marker.strip source) = contentLines source := by
  have hfeed : ∀ line ∈ Marker.dropFirst (lines source), '\n' ∉ line := fun line hline =>
    feed_not_mem_closeLines (not_mem_of_mem_splitOn '\n' source) line
      ((dropFirst_sublist _).subset hline)
  exact (contentLines_join hfeed).trans (content_dropFirst (lines source))

theorem contentLines_mark (source : Text) :
    contentLines (Marker.mark source) = contentLines source := by
  have hfeed : '\n' ∉ Marker.line := by decide
  have hpieces : splitOn '\n' (Marker.mark source) = Marker.line :: splitOn '\n' source :=
    splitOn_append_cons hfeed source
  rw [contentLines_eq, contentLines_eq, hpieces]
  exact content_cons_silent (by decide) _

end Dialect

namespace Diagram

open Dialect Text

theorem readText_congr {source text : Text} (h : contentLines text = contentLines source)
    (previous : Diagram) : readText text previous = readText source previous := by
  unfold readText readTextInScope
  rw [h]

theorem readText_eq_error {source : Text} {previous : Diagram} :
    readText source previous = .error .empty ↔ contentLines source = [] := by
  cases hl : contentLines source with
  | nil => simp [readText, readTextInScope, hl, Except.map]
  | cons header rest =>
    obtain ⟨counter, hread⟩ := readText_cons hl previous
    rw [hread]
    refine iff_of_false ?_ (List.cons_ne_nil _ _)
    intro h
    cases h

/-- The marker, the way lines end, the blanks around them and silent lines make no difference to
what is read, and a text with silent lines only is refused. -/
theorem readText_layout (source : Text) (previous : Diagram) :
    readText (Marker.mark source) previous = readText source previous ∧
      readText (Marker.strip source) previous = readText source previous ∧
      readText (withReturns source) previous = readText source previous ∧
      (∀ text, Relaid (splitOn '\n' source) (splitOn '\n' text) →
        readText text previous = readText source previous) ∧
      (readText source previous = .error .empty ↔ ∀ line ∈ lines source, Silent line) := by
  have hrelaid : ∀ text, Relaid (splitOn '\n' source) (splitOn '\n' text) →
      readText text previous = readText source previous :=
    fun text h => readText_congr h.contentLines_eq previous
  refine ⟨readText_congr (contentLines_mark source) previous,
    readText_congr (contentLines_strip source) previous, hrelaid _ ?_, hrelaid, ?_⟩
  · rw [splitOn_withReturns]
    exact relaid_returned _
  · exact readText_eq_error.trans content_eq_nil

def slip : Text := " %% mermaid-magic\r\npie title X\n\n\"A\": 1".toList

/-- The marker without blanks around it, the other lines with some, and two more comments. -/
def wideSlip : Text :=
  "%% mermaid-magic\n\u3000pie title X\t\r\n%% mermaid-magic\n\n  \"A\": 1 \n%%".toList

theorem relaid_slip : Relaid (splitOn '\n' slip) (splitOn '\n' wideSlip) :=
  .line "%% mermaid-magic".toList [' '] ['\r'] [] [] (by decide) (by decide) gap_nil gap_nil <|
  .line "pie title X".toList [] [] ['\u3000'] ['\t', '\r'] gap_nil gap_nil (by decide) (by decide) <|
  .inserted (by decide) <|
  .line [] [] [] [] [] gap_nil gap_nil gap_nil gap_nil <|
  .line "\"A\": 1".toList [] [] [' ', ' '] [' '] gap_nil gap_nil (by decide) (by decide) <|
  .inserted (by decide) .nil

theorem readText_layout_slip :
    ∃ d, readText slip {} = .ok d ∧ d.pie.slices.map Slice.label = ["A".toList] ∧
      readText (Marker.mark slip) {} = .ok d ∧ readText (Marker.strip slip) {} = .ok d ∧
      readText (withReturns slip) {} = .ok d ∧ readText wideSlip {} = .ok d ∧
      readText "\n %% mermaid-magic\r\n\t".toList {} = .error .empty := by
  have hread : (readText slip {}).toOption.any
      (fun d => d.pie.slices.map Slice.label = ["A".toList]) = true := by decide
  obtain ⟨d, hd, hlabels⟩ := exists_readText hread
  obtain ⟨hmark, hstrip, hreturns, hrelaid, -⟩ := readText_layout slip {}
  rw [hd] at hmark hstrip hreturns hrelaid
  refine ⟨d, hd, of_decide_eq_true hlabels, hmark, hstrip, hreturns, hrelaid _ relaid_slip, ?_⟩
  exact (readText_layout "\n %% mermaid-magic\r\n\t".toList {}).2.2.2.2.mpr (by decide)

end Diagram
end DiagramDoc
