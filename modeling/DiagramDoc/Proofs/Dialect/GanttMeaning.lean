import DiagramDoc.Proofs.Dialect.GanttLines
import DiagramDoc.Proofs.Text.Unescaped
import Mathlib.Data.List.Induction

/-!
# What the pieces of a task mean

The pieces behind the colon of a task are taken in one by one, and what becomes of a piece depends
on what those before it were. In the end this comes to two passes: the first status word gives the
status, and of the pieces without this one the first is the start and the second the end.
-/

namespace DiagramDoc.Dialect.Tasks

open Text

def isStatusWord (piece : Text) : Bool :=
  ["done", "active", "crit"].any fun word => sameIgnoringCase word.toList piece

/-- What a status word means, in any ASCII case. -/
def statusMeant? (piece : Text) : Option TaskStatus :=
  if sameIgnoringCase "done".toList piece then some .done
  else if sameIgnoringCase "active".toList piece then some .active
  else if sameIgnoringCase "crit".toList piece then some .critical
  else none

/-- The status of the first status word. -/
def statusIn? (pieces : List Text) : Option TaskStatus := pieces.findSome? statusMeant?

/-- All pieces but the first status word. -/
def datesIn (pieces : List Text) : List Text := pieces.eraseP isStatusWord

/-- The first two dates are the start and the end. -/
def Entry.dated (label : Text) (status : Option TaskStatus) (dates : List Text) : Entry :=
  { label, status, start := unescape (dates[0]?.getD []), finish := unescape (dates[1]?.getD []) }

def entryMeant (label : Text) (pieces : List Text) : Entry :=
  .dated label (statusIn? pieces) (datesIn pieces)

/-- A line that is cut at its first colon that is not escaped, and behind it at all such commas. -/
structure TaskText (line label : Text) (fields : List Text) : Prop where
  onlyEscaped : OnlyEscaped ':' label
  notEscaping : ¬ EndsEscaping label
  spelled : ∃ rest, line = label ++ ':' :: rest ∧ Fields ',' rest fields

/-! ### Status words -/

theorem statusMeant?_eq (piece : Text) : statusMeant? piece = TaskStatus.ofWord? piece := by
  unfold statusMeant?
  split
  · next h => exact (ofWord?_eq_some_iff (s := .done).mpr h).symm
  · next hdone =>
    split
    · next h => exact (ofWord?_eq_some_iff (s := .active).mpr h).symm
    · next hactive =>
      split
      · next h => exact (ofWord?_eq_some_iff (s := .critical).mpr h).symm
      · next hcritical =>
        refine (Option.eq_none_iff_forall_not_mem.mpr fun s hs => ?_).symm
        have hs := ofWord?_eq_some_iff.mp hs
        cases s with
        | done => exact hdone hs
        | active => exact hactive hs
        | critical => exact hcritical hs

theorem isStatusWord_eq (piece : Text) : isStatusWord piece = (statusMeant? piece).isSome := by
  unfold isStatusWord statusMeant?
  simp only [List.any_cons, List.any_nil, Bool.or_false]
  cases sameIgnoringCase "done".toList piece <;> cases sameIgnoringCase "active".toList piece <;>
    cases sameIgnoringCase "crit".toList piece <;> rfl

/-! ### One more piece -/

section Concat

variable {pieces : List Text} {piece : Text}

theorem statusIn?_concat : statusIn? (pieces ++ [piece]) =
    (statusIn? pieces).or (statusMeant? piece) := by
  unfold statusIn?
  rw [List.findSome?_append, List.findSome?_singleton]

theorem isStatusWord_of_some {s : TaskStatus} (h : statusMeant? piece = some s) :
    isStatusWord piece = true := by
  rw [isStatusWord_eq, h]
  rfl

theorem not_isStatusWord (h : statusIn? pieces = none) : ∀ word ∈ pieces, ¬ isStatusWord word := by
  intro word hword
  rw [isStatusWord_eq, List.findSome?_eq_none_iff.mp h word hword]
  exact Bool.false_ne_true

theorem datesIn_eq_self (h : statusIn? pieces = none) : datesIn pieces = pieces :=
  List.eraseP_of_forall_not (not_isStatusWord h)

/-- Behind a status word every piece is a date. -/
theorem datesIn_concat_of_some {s : TaskStatus} (h : statusIn? pieces = some s) :
    datesIn (pieces ++ [piece]) = datesIn pieces ++ [piece] := by
  obtain ⟨word, hmem, hword⟩ := List.exists_of_findSome?_eq_some h
  exact List.eraseP_append_left (isStatusWord_of_some hword) [piece] hmem

/-- The first status word is no date. -/
theorem datesIn_concat_word {s : TaskStatus} (h : statusIn? pieces = none)
    (hp : statusMeant? piece = some s) : datesIn (pieces ++ [piece]) = datesIn pieces := by
  rw [datesIn_eq_self h]
  unfold datesIn
  rw [List.eraseP_append_right _ (not_isStatusWord h),
    List.eraseP_cons_of_pos (isStatusWord_of_some hp), List.append_nil]

end Concat

/-! ### Taking in the pieces -/

/-- A piece that is no status is the start, the end, or nothing if both are there. -/
theorem addPiece_dated {label piece : Text} {status : Option TaskStatus} {dates : List Text}
    (hdates : ∀ date ∈ dates, date ≠ []) (h : status = none → TaskStatus.ofWord? piece = none) :
    (Entry.dated label status dates).addPiece piece = .dated label status (dates ++ [piece]) := by
  have hsome : ∀ date ∈ dates, unescape date ≠ [] := fun date hd hu =>
    hdates date hd (unescape_eq_nil.mp hu)
  rw [addPiece_date h]
  match dates with
  | [] => exact if_pos rfl
  | [start] =>
    have hstart := hsome start List.mem_cons_self
    exact (if_neg hstart).trans (if_pos rfl)
  | start :: finish :: _ =>
    have hstart := hsome start List.mem_cons_self
    have hfinish := hsome finish (List.mem_cons_of_mem _ List.mem_cons_self)
    exact (if_neg hstart).trans (if_neg hfinish)

/-- What one more piece does to the entry that the pieces before it mean. -/
theorem addPiece_entryMeant {label piece : Text} {pieces : List Text}
    (hpieces : ∀ piece ∈ pieces, piece ≠ []) :
    (entryMeant label pieces).addPiece piece = entryMeant label (pieces ++ [piece]) := by
  have hdates : ∀ date ∈ datesIn pieces, date ≠ [] := fun date hd =>
    hpieces date (List.mem_of_mem_eraseP hd)
  unfold entryMeant
  rw [statusIn?_concat]
  cases hs : statusIn? pieces with
  | some s =>
    rw [datesIn_concat_of_some hs]
    exact addPiece_dated hdates nofun
  | none =>
    cases hp : statusMeant? piece with
    | some s =>
      rw [datesIn_concat_word hs hp]
      exact addPiece_status rfl ((statusMeant?_eq piece).symm.trans hp)
    | none =>
      have hnone : statusIn? (pieces ++ [piece]) = none := by
        rw [statusIn?_concat, hs, hp]
        rfl
      rw [datesIn_eq_self hnone]
      rw [datesIn_eq_self hs] at hdates ⊢
      exact addPiece_dated hdates fun _ => (statusMeant?_eq piece).symm.trans hp

theorem foldl_addPiece {pieces : List Text} (hpieces : ∀ piece ∈ pieces, piece ≠ [])
    (label : Text) : pieces.foldl Entry.addPiece { label } = entryMeant label pieces := by
  induction pieces using List.reverseRecOn with
  | nil => rfl
  | append_singleton pieces piece ih =>
    have hbefore : ∀ p ∈ pieces, p ≠ [] := fun p hp => hpieces p (List.mem_append_left _ hp)
    rw [List.foldl_append, ih hbefore]
    exact addPiece_entryMeant hbefore

/-! ### Lines of tasks -/

theorem readTask?_eq_none_iff {line : Text} : readTask? line = none ↔ OnlyEscaped ':' line := by
  unfold readTask?
  rw [Option.map_eq_none_iff, cutUnescaped?_eq_none_iff (by decide)]

theorem readTask?_of_taskText {line label : Text} {fields : List Text}
    (h : TaskText line label fields) :
    readTask? line =
      some (entryMeant (unescape (trim label)) ((fields.map trim).filter (· ≠ []))) := by
  obtain ⟨rest, rfl, hfields⟩ := h.spelled
  have hpieces : pieces rest = (fields.map trim).filter (· ≠ []) := by
    unfold pieces
    rw [(splitUnescaped_eq_iff (by decide)).mpr hfields]
  unfold readTask?
  rw [cutUnescaped?_append_cons (by decide) h.onlyEscaped h.notEscaping, Option.map_some]
  dsimp only
  rw [hpieces, foldl_addPiece fun piece hp => of_decide_eq_true (List.mem_filter.mp hp).2]

theorem exists_taskText {line : Text} {entry : Entry} (h : readTask? line = some entry) :
    ∃ label fields, TaskText line label fields := by
  unfold readTask? at h
  obtain ⟨⟨label, rest⟩, hcut, -⟩ := Option.map_eq_some_iff.mp h
  obtain ⟨hline, hlabel, hend⟩ := (cutUnescaped?_eq_some_iff (by decide)).mp hcut
  exact ⟨label, _, hlabel, hend, rest, hline, fields_splitUnescaped (by decide) rest⟩

/-- A line is read as a task if it has a colon that is not escaped. The label is what stands before
the first of them; the first status word behind it is the status, and the other pieces are the start
and the end, as far as there are any. -/
theorem readTask?_two_passes (line : Text) :
    (readTask? line = none ↔ OnlyEscaped ':' line) ∧
      ∀ entry, readTask? line = some entry ↔ ∃ label fields, TaskText line label fields ∧
        entry = entryMeant (unescape (trim label)) ((fields.map trim).filter (· ≠ [])) := by
  refine ⟨readTask?_eq_none_iff, fun entry => ⟨fun h => ?_, ?_⟩⟩
  · obtain ⟨label, fields, htext⟩ := exists_taskText h
    rw [readTask?_of_taskText htext] at h
    exact ⟨label, fields, htext, (Option.some.inj h).symm⟩
  · rintro ⟨label, fields, htext, rfl⟩
    exact readTask?_of_taskText htext

/-- A date before the status, a second status word, and a comma that is escaped. -/
example : readTask? "A\\: b : May\\, 2, DONE,, Crit , end".toList =
    some ⟨"A: b".toList, some .done, "May, 2".toList, "Crit".toList⟩ := by decide

end DiagramDoc.Dialect.Tasks
