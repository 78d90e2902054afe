import DiagramDoc.Dialect.Pie
import DiagramDoc.Proofs.Diagram.Entity
import DiagramDoc.Proofs.Dialect.LabelLine
import DiagramDoc.Proofs.Dialect.ReadText
import DiagramDoc.Proofs.Number.Numeral

/-!
# Reading a pie chart back

The text of a pie chart with tidy labels and finite values is read as the same chart, up to
identifiers, colours, line breaks and the sign of zero. What any text without stray carriage returns
is read as has such slices, so it is written the same way again.
-/

namespace DiagramDoc.Dialect.Slices

open Text

/-! ### The written lines -/

structure Readable (s : Slice) : Prop where
  label_ne : s.label ≠ []
  label : Tidy (unifyBreaks s.label)
  value : s.value.isFinite = true

instance (s : Slice) : Decidable (Readable s) :=
  decidable_of_iff (s.label ≠ [] ∧ Tidy (unifyBreaks s.label) ∧ s.value.isFinite = true)
    ⟨fun ⟨hne, hl, hf⟩ => ⟨hne, hl, hf⟩, fun ⟨hne, hl, hf⟩ => ⟨hne, hl, hf⟩⟩

theorem readLine?_title {t : Text} (h : Tidy (unifyBreaks t)) :
    readLine? ("title ".toList ++ escape t) = some (.title (unifyBreaks t)) := by
  have hp : afterKeyword? "pie".toList ("title ".toList ++ escape t) = none := rfl
  have hk : afterKeyword? "title".toList ("title ".toList ++ escape t) = some (escape t) :=
    afterKeyword?_title h
  unfold readLine?
  rw [hp, hk]
  dsimp only
  rw [unescape_escape]

theorem isValue_toText {x : Number} (h : x.isFinite = true) : isValue x.toText = true := by
  cases x with
  | undefined => cases h
  | infinite negative => cases h
  | finite negative p =>
    obtain ⟨t, ht, hs⟩ := Number.toText_finite negative p
    obtain ⟨c, rest, hc, hd⟩ := hs.plain.head
    have hall : ∀ c ∈ t, (c.isDigit || c == '.') = true := by
      intro c hc
      simpa using hs.plain.chars c hc
    have hbody : (stripPrefix? ['-'] (Number.signed (negative && p.val != 0) t)).getD
        (Number.signed (negative && p.val != 0) t) = t := by
      cases negative && p.val != 0 with
      | true =>
        show (stripPrefix? ['-'] (['-'] ++ t)).getD _ = t
        rw [stripPrefix?_append]
        rfl
      | false =>
        have hne : '-' ≠ c := by
          rintro rfl
          exact absurd hd (by decide)
        show (stripPrefix? ['-'] t).getD t = t
        rw [hc, stripPrefix?_cons_ne hne]
        rfl
    unfold isValue
    rw [ht]
    dsimp only
    rw [hbody]
    simp only [Bool.and_eq_true, List.all_eq_true, decide_eq_true_eq]
    exact ⟨by rw [hc]; exact List.cons_ne_nil _ _, hall⟩

theorem sliceLine_eq (s : Slice) : sliceLine s =
    ('"' :: (escape s.label ++ ['"'])) ++ ':' :: ' ' :: s.value.toText := by
  unfold sliceLine
  simp

theorem readLabel_quoted (t : Text) : readLabel ('"' :: (escape t ++ ['"'])) = trim (escape t) := by
  have htrim : trim ('"' :: (escape t ++ ['"'])) = '"' :: (escape t ++ ['"']) :=
    trim_eq_self (by decide) (by decide) _
  have hcut : cutUnescaped? '"' (escape t ++ ['"']) = some (escape t, []) :=
    cutUnescaped?_escapeFor (.inl rfl) (by decide) t []
  unfold readLabel
  simp only [htrim, hcut]

/-- The line of a slice is read unless nothing of the label is left between the quotes. -/
theorem readLine?_quoted {s : Slice} (h : s.value.isFinite = true) :
    readLine? (sliceLine s) =
      if trim (escape s.label) = [] then none
      else some (.slice (unescape (trim (escape s.label))) s.value.unsignZero) := by
  have hp : afterKeyword? "pie".toList (sliceLine s) = none := rfl
  have ht : afterKeyword? "title".toList (sliceLine s) = none := rfl
  have hcolon : ':' ∉ ' ' :: s.value.toText :=
    List.not_mem_cons_of_ne_of_not_mem (by decide)
      (Number.not_mem_toText h (by decide) (by decide) (by decide))
  have hcut := cutLast?_append_cons hcolon ('"' :: (escape s.label ++ ['"']))
  unfold readLine? readSlice?
  rw [hp, ht, sliceLine_eq, hcut]
  dsimp only
  rw [trim_cons_blank (by decide), Number.trim_toText h, readLabel_quoted, isValue_toText h,
    Number.ofText_toText h, if_pos (Number.isFinite_unsignZero h)]
  simp only [Bool.true_eq_false, false_or]
  split <;> rfl

theorem readLine?_sliceLine {s : Slice} (h : Readable s) :
    readLine? (sliceLine s) = some (.slice (unifyBreaks s.label) s.value.unsignZero) := by
  have htrim : trim (escape s.label) = escape s.label := trim_escapeFor meaning_none h.label
  have hne : escape s.label ≠ [] := fun he => h.label_ne (escapeFor_eq_nil.mp he)
  rw [readLine?_quoted h.value, htrim, if_neg hne, unescape_escape]

theorem written_sliceLine {s : Slice} (h : s.value.isFinite = true) : Written (sliceLine s) where
  noFeed := by
    have hl : '\n' ∉ escape s.label := lineFeed_not_mem_escapeFor s.label
    have hv : '\n' ∉ s.value.toText :=
      Number.not_mem_toText h (by decide) (by decide) (by decide)
    rw [sliceLine_eq]
    simp [hl, hv]
  trimmed := by
    have hline : sliceLine s = '"' :: (escape s.label ++ "\": ".toList ++ s.value.toText) := rfl
    rw [hline]
    exact trim_cons_append (by decide) _ (Number.toText_ne_nil h) (Number.trim_toText h)
  content := isContent_cons (by decide) _

/-- The lines of a pie chart that count behind the header. -/
def writtenLines (p : Pie) : List Text := titleLines p.title ++ p.slices.map sliceLine

theorem contentLines_write {p : Pie} (ht : Tidy (unifyBreaks p.title))
    (h : ∀ s ∈ p.slices, Readable s) :
    contentLines (write p) = "pie".toList :: writtenLines p :=
  contentLines_of_written ⟨by decide, by decide, by decide⟩
    (List.forall_mem_append.mpr ⟨written_titleLines ht,
      List.forall_mem_map.mpr fun s hs => written_sliceLine (h s hs).value⟩)

/-! ### How many slices are read -/

def isSliceLine (line : Text) : Bool :=
  match readLine? line with
  | some (.slice _ _) => true
  | _ => false

theorem length_addLine (state : Pie × Scope) (line : Text) :
    (addLine state line).1.slices.length = state.1.slices.length + (isSliceLine line).toNat := by
  unfold addLine isSliceLine
  dsimp only
  split
  · next h => rw [h]; rfl
  · next h => rw [h]; rfl
  · next h => rw [h]; exact List.length_append
  · next h => rw [h]; rfl

theorem isSliceLine_of_title {line : Text} (h : afterKeyword? titleWord line ≠ none) :
    isSliceLine line = false := by
  unfold isSliceLine readLine?
  cases afterKeyword? "pie".toList line with
  | some rest =>
    dsimp only
    cases afterKeyword? "title".toList rest <;> rfl
  | none =>
    dsimp only
    cases ht : afterKeyword? "title".toList line with
    | some title => rfl
    | none => exact absurd ht h

theorem counts_sliceLine {s : Slice} (h : s.value.isFinite = true) :
    (isSliceLine (sliceLine s) && isContent (sliceLine s)) = decide (unindented s.label ≠ []) := by
  have hnil : trim (escape s.label) = [] ↔ unindented s.label = [] :=
    trim_escapeFor_eq_nil meaning_none
  unfold isSliceLine
  rw [readLine?_quoted h, (written_sliceLine h).content, Bool.and_true]
  by_cases hl : unindented s.label = []
  · rw [if_pos (hnil.mpr hl), hl]
    rfl
  · rw [if_neg fun he => hl (hnil.mp he), decide_eq_true hl]

/-- Reading the text of a chart finds the slices whose labels are not blank. -/
theorem length_read {p : Pie} (hp : ∀ s ∈ p.slices, s.value.isFinite = true) {rest : List Text}
    (h : contentLines (write p) = "pie".toList :: rest) (scope : Scope) :
    (read ("pie".toList :: rest) scope).1.slices.length =
      p.slices.countP fun s => decide (unindented s.label ≠ []) := by
  have hall := List.forall_mem_append.mpr ⟨lineFeed_not_mem_titleLines p.title,
    List.forall_mem_map.mpr fun s hs => (written_sliceLine (hp s hs)).noFeed⟩
  have hnone : ∀ line ∈ titleLines p.title, isSliceLine (trim line) = false :=
    fun line hline => isSliceLine_of_title (afterKeyword?_titleLines p.title line hline)
  have hcount := countP_contentLines_body (by decide) (by decide) (by decide) hall hnone h
  have hlines : ((p.slices.map sliceLine).map trim).countP
      (fun line => isSliceLine line && isContent line) =
        p.slices.countP fun s => decide (unindented s.label ≠ []) := by
    rw [List.countP_map, List.countP_map]
    refine List.countP_congr fun s hs => ?_
    rw [← counts_sliceLine (hp s hs)]
    dsimp only [Function.comp]
    rw [(written_sliceLine (hp s hs)).trimmed]
  have hheader : isSliceLine "pie".toList = false := by decide
  unfold read
  rw [count_foldl (fun state : Pie × Scope => state.1.slices.length) length_addLine,
    List.countP_cons_of_neg (by rw [hheader]; decide), hcount, hlines]
  exact Nat.zero_add _

/-! ### Reading the written lines -/

/-- A slice as its line is read. -/
def reread (s : Slice) : Slice :=
  { id := s.id, label := unifyBreaks s.label, value := s.value.unsignZero }

theorem addLine_sliceLine {s : Slice} (h : Readable s) (pie : Pie) (scope : Scope) :
    addLine (pie, scope) (sliceLine s) =
      ({ pie with slices := pie.slices ++ [Entity.withId (reread s) scope.fresh.1] },
        scope.fresh.2) := by
  unfold addLine
  dsimp only
  rw [readLine?_sliceLine h]
  rfl

theorem addLines_sliceLine {slices : List Slice} (h : ∀ s ∈ slices, Readable s) (pie : Pie)
    (scope : Scope) :
    ∃ scope' added, (slices.map sliceLine).foldl addLine (pie, scope) =
        ({ pie with slices := pie.slices ++ added }, scope') ∧
      Entity.anonymous added = Entity.anonymous (slices.map reread) := by
  induction slices generalizing pie scope with
  | nil =>
    refine ⟨scope, [], ?_, rfl⟩
    rw [List.append_nil]
    rfl
  | cons s slices ih =>
    obtain ⟨hs, hrest⟩ := List.forall_mem_cons.mp h
    obtain ⟨last, added, hlast, hanon⟩ := ih hrest
      { pie with slices := pie.slices ++ [Entity.withId (reread s) scope.fresh.1] } scope.fresh.2
    refine ⟨last, Entity.withId (reread s) scope.fresh.1 :: added, ?_, ?_⟩
    · rw [List.map_cons, List.foldl_cons, addLine_sliceLine hs, hlast]
      simp only [List.append_assoc, List.singleton_append]
    · exact Entity.anonymous_withId_cons hanon _ _

theorem addLines_titleLines (scope : Scope) {t : Text} (h : Tidy (unifyBreaks t)) :
    (titleLines t).foldl addLine ({}, scope) = ({ title := unifyBreaks t }, scope) := by
  unfold titleLines
  split
  · next he =>
    rw [he]
    rfl
  · rw [List.foldl_cons, List.foldl_nil]
    unfold addLine
    dsimp only
    rw [readLine?_title h]

/-- Reading the header and the lines of a pie chart back. -/
theorem read_writtenLines {p : Pie} (ht : Tidy (unifyBreaks p.title))
    (h : ∀ s ∈ p.slices, Readable s) (scope : Scope) :
    (read ("pie".toList :: writtenLines p) scope).1.title = unifyBreaks p.title ∧
      Entity.anonymous (read ("pie".toList :: writtenLines p) scope).1.slices =
        Entity.anonymous (p.slices.map reread) := by
  have hheader : addLine ({}, scope) "pie".toList = ({}, scope) := rfl
  obtain ⟨last, added, hread, hanon⟩ := addLines_sliceLine h { title := unifyBreaks p.title } scope
  unfold read writtenLines
  rw [List.foldl_cons, hheader, List.foldl_append, addLines_titleLines scope ht, hread]
  exact ⟨rfl, hanon⟩

/-! ### Pie charts that were read -/

/-- What reading a line without carriage returns makes of a slice. -/
structure Settled (s : Slice) : Prop where
  label_ne : s.label ≠ []
  label : Neat s.label
  value : s.value.isFinite = true

theorem Settled.readable {s : Slice} (h : Settled s) : Readable s :=
  ⟨h.label_ne, h.label.tidy_unifyBreaks, h.value⟩

theorem sliceLine_reread {s : Slice} (h : Settled s) : sliceLine (reread s) = sliceLine s := by
  unfold sliceLine reread
  dsimp only
  rw [h.label.unifyBreaks_eq, Number.toText_unsignZero]

theorem readLabel_spec (t : Text) :
    trim (readLabel t) = readLabel t ∧ ∀ c ∈ readLabel t, c ∈ t := by
  unfold readLabel
  split
  · next quoted hq =>
    have hsub : ∀ c ∈ quoted, c ∈ t := fun c hc =>
      mem_of_mem_trim (hq ▸ List.mem_cons_of_mem _ hc)
    split
    · next label after hcut =>
      refine ⟨trim_trim label, fun c hc => hsub c ?_⟩
      rw [eq_append_of_cutUnescaped? hcut]
      exact List.mem_append_left _ (mem_of_mem_trim hc)
    · exact ⟨trim_trim quoted, fun c hc => hsub c (mem_of_mem_trim hc)⟩
  · exact ⟨trim_trim t, fun c hc => mem_of_mem_trim hc⟩

theorem settled_readSlice {line label : Text} {value : Number} (hr : '\r' ∉ line)
    (h : readSlice? line = some (label, value)) (id : Nat) : Settled { id, label, value } := by
  have hzero : (0 : Number).isFinite = true := Number.isFinite_ofNat (by decide)
  unfold readSlice? at h
  split at h
  · cases h
  · next before after hcut =>
    obtain ⟨htrim, hsub⟩ := readLabel_spec before
    have hbefore : '\r' ∉ readLabel before := fun hm =>
      (not_mem_of_eq_append (eq_append_of_cutLast? hcut) hr).1 (hsub _ hm)
    dsimp only at h
    split at h
    · cases h
    · next hok =>
      cases h
      refine ⟨fun he => hok (.inr (unescape_eq_nil.mp he)), neat_unescape htrim hbefore, ?_⟩
      dsimp only
      split
      · assumption
      · exact hzero

/-- What lines without carriage returns make of a chart. -/
structure SettledPie (p : Pie) : Prop where
  title : Neat p.title
  slices : ∀ s ∈ p.slices, Settled s

/-- One line keeps a chart settled. -/
theorem settled_addLine {state : Pie × Scope} {line : Text} (hp : SettledPie state.1)
    (hr : '\r' ∉ line) : SettledPie (addLine state line).1 := by
  obtain ⟨pie, scope⟩ := state
  unfold addLine readLine?
  dsimp only
  cases hk : afterKeyword? "pie".toList line with
  | some rest =>
    dsimp only
    cases ht : afterKeyword? "title".toList rest with
    | some title =>
      have hrest : '\r' ∉ rest := fun hm => hr ((afterKeyword?_spec hk).2.subset hm)
      exact ⟨neat_of_afterKeyword? ht hrest, hp.slices⟩
    | none => exact hp
  | none =>
    dsimp only
    cases ht : afterKeyword? "title".toList line with
    | some title => exact ⟨neat_of_afterKeyword? ht hr, hp.slices⟩
    | none =>
      dsimp only
      cases hs : readSlice? line with
      | none => exact ⟨hp.title, hp.slices⟩
      | some slice =>
        refine ⟨hp.title, List.forall_mem_append.mpr ⟨hp.slices, ?_⟩⟩
        exact List.forall_mem_singleton.mpr (settled_readSlice hr hs _)

theorem settled_read {lines : List Text} (hl : ∀ line ∈ lines, '\r' ∉ line) (scope : Scope) :
    SettledPie (read lines scope).1 := by
  have hall : ∀ state : Pie × Scope, SettledPie state.1 →
      SettledPie (lines.foldl addLine state).1 := by
    induction lines with
    | nil => exact fun state hp => hp
    | cons line lines ih =>
      obtain ⟨hline, hrest⟩ := List.forall_mem_cons.mp hl
      exact fun state hp => ih hrest _ (settled_addLine hp hline)
  exact hall ({}, scope) ⟨neat_nil, fun s hs => nomatch hs⟩

/-! ### Writing again -/

theorem map_sliceLine_anonymous (slices : List Slice) :
    (Entity.anonymous slices).map sliceLine = slices.map sliceLine := by
  unfold Entity.anonymous
  rw [List.map_map]
  rfl

/-- A pie chart that was read is written as it is when it was read again. -/
theorem write_read {p : Pie} (h : SettledPie p) (scope : Scope) :
    write (read ("pie".toList :: writtenLines p) scope).1 = write p := by
  obtain ⟨htitle, hslices⟩ := read_writtenLines h.title.tidy_unifyBreaks
    (fun s hs => (h.slices s hs).readable) scope
  have hlines : (read ("pie".toList :: writtenLines p) scope).1.slices.map sliceLine =
      p.slices.map sliceLine := by
    rw [← map_sliceLine_anonymous, hslices, map_sliceLine_anonymous, List.map_map]
    exact List.map_congr_left fun s hs => sliceLine_reread (h.slices s hs)
  unfold write
  rw [htitle, h.title.unifyBreaks_eq, hlines]

end DiagramDoc.Dialect.Slices

namespace DiagramDoc.Diagram

open Dialect

/-- Reading the text of a pie chart back gives the same chart, up to identifiers and colours, if its
labels are tidy and its values finite: line breaks are unified and zero loses its sign. -/
theorem readText_writeText_pie {d : Diagram} (hk : d.kind = .pie)
    (ht : Text.Tidy (Text.unifyBreaks d.pie.title))
    (h : ∀ s ∈ d.pie.slices, Slices.Readable s) :
    ∃ e, readText d.writeText d = .ok e ∧ e.kind = .pie ∧
      e.pie.title = Text.unifyBreaks d.pie.title ∧
      Entity.anonymous e.pie.slices = Entity.anonymous (d.pie.slices.map Slices.reread) := by
  have htext : d.writeText = Slices.write d.pie := by
    unfold writeText
    rw [hk]
  have hheader : Grammar.ofHeader "pie".toList = .headed .pie := by decide
  have hlines := Slices.contentLines_write ht h
  obtain ⟨counter, hread⟩ := readText_headed hlines hheader d
  rw [← htext] at hread
  exact ⟨_, hread, rfl, Slices.read_writtenLines ht h _⟩

/-- Labels that look like other lines of the chart or end in a quote or a backslash, one of them
twice; values without a point, with one, below zero, beyond all fractions and next to zero. -/
def thorny : Diagram where
  kind := .pie
  pie :=
    { title := "pie title\n\r\n".toList
      slices :=
        [{ id := 1, label := "title A: 5".toList, value := .ofBits 0xC010000000000000 },
         { id := 1, label := "a\": 7\\".toList, value := .ofBits 0x3FB999999999999A },
         { id := 0, label := "\r\n%% b\"".toList, value := .signedZero true },
         { id := 2, label := "title A: 5".toList, value := .ofBits 0xFE37E43C8800759C },
         { id := 3, label := "pie".toList, value := .ofBits 1 }] }

theorem readText_writeText_thorny :
    ∃ e, readText thorny.writeText thorny = .ok e ∧ e.kind = .pie ∧
      e.pie.title = Text.unifyBreaks thorny.pie.title ∧
      Entity.anonymous e.pie.slices = Entity.anonymous (thorny.pie.slices.map Slices.reread) :=
  readText_writeText_pie rfl (by decide) (by decide)

end DiagramDoc.Diagram
