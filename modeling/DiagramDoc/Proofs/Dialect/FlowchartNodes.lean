import DiagramDoc.Proofs.Dialect.FlowchartEdges

/-!
# The lines of nodes and styles

The line of a node is a name and a label in brackets, which tell the shape. A style is its keyword,
the name it is about and what it declares, between blanks. A line is read as a node or as a style
just if it is spelled like one.
-/

namespace DiagramDoc.Dialect.Flow

open Text

/-- A line that is put together from the parts of a style: the keyword in letters of any case, a
word, and all that stands behind it up to the blanks at the end. -/
structure StyleText (line name declarations : Text) : Prop where
  name_ne_nil : name ≠ []
  name_noBlank : ∀ c ∈ name, isBlank c = false
  declarations_ne_nil : declarations ≠ []
  declarations_trimmed : trim declarations = declarations
  spelled : ∃ key gap gap' gap'', sameIgnoringCase key "style".toList = true ∧
    Gap gap ∧ gap ≠ [] ∧ Gap gap' ∧ gap' ≠ [] ∧ Gap gap'' ∧
    line = key ++ gap ++ name ++ gap' ++ declarations ++ gap''

/-- The brackets around a label tell its shape. Quotes within square brackets belong to these. -/
inductive ShapeText : Text → Shape → Text → Prop
  | decision (label : Text) : ShapeText label .decision ('\x7b' :: (label ++ ['\x7d']))
  | terminator (label : Text) : ShapeText label .terminator ('(' :: '[' :: (label ++ [']', ')']))
  | quoted (label : Text) : ShapeText label .process ('[' :: '"' :: (label ++ ['"', ']']))
  | bare {label : Text} (h : ∀ inner, label ≠ '"' :: (inner ++ ['"'])) :
    ShapeText label .process ('[' :: (label ++ [']']))

/-- A line that is put together from a name and a label in brackets. -/
structure NodeText (line name gap label : Text) (shape : Shape) : Prop where
  isName : IsName name
  isGap : Gap gap
  spelled : ∃ text, ShapeText label shape text ∧ line = name ++ gap ++ text

/-! ### Styles -/

section Style

variable {line name declarations : Text}

theorem readLine?_style_iff :
    readLine? line = some (.style name declarations) ↔
      ∃ rest, afterKeyword? "style".toList line = some rest ∧
        splitWord rest = (name, declarations) ∧ name ≠ [] ∧ declarations ≠ [] := by
  unfold readLine?
  cases afterKeyword? "style".toList line with
  | some rest =>
    dsimp only
    constructor
    · intro h
      split at h
      · next hne =>
        cases h
        exact ⟨rest, rfl, rfl, hne⟩
      · cases h
    · rintro ⟨_, ⟨⟩, hword, hne⟩
      rw [hword]
      exact if_pos hne
  | none =>
    refine iff_of_false (fun h => ?_) fun ⟨_, h, _⟩ => nomatch h
    dsimp only at h
    split at h
    · cases h
    · split at h
      · obtain ⟨_, _, _, -, -, -, he⟩ := readEdge?_eq_some_iff.mp h
        cases he
      · obtain ⟨_, -, he⟩ := Option.map_eq_some_iff.mp h
        cases he

theorem styleText_of_readLine? (h : readLine? line = some (.style name declarations)) :
    StyleText line name declarations := by
  obtain ⟨rest, hkey, hword, hne, hne'⟩ := readLine?_style_iff.mp h
  obtain ⟨key, tail, hsame, hblank, rfl, rfl⟩ := afterKeyword?_eq_some_iff.mp hkey
  obtain ⟨after, hname, hstop, hrest, rfl⟩ := splitWord_eq_iff.mp hword
  -- The blanks behind the declarations are those of what follows the name and those of the line.
  obtain ⟨gap, gap'', hgap, hgap'', htail⟩ := exists_trim_gaps tail
  obtain ⟨gap', last, hgap', hlast, hafter⟩ := exists_trim_gaps after
  have htrimmed := (trim_eq_self_iff.mp (trim_trim after)).1
  have hfirst : ∀ c ∈ name.head?, isBlank c = false := fun c hc =>
    hname c (List.mem_of_mem_head? hc)
  rw [htail, hrest, List.append_assoc, List.append_assoc] at hblank
  rw [hafter, List.append_assoc] at hstop
  refine ⟨hne, hname, hne', trim_trim after, key, gap, gap', last ++ gap'', hsame, hgap,
    gap_ne_nil hne hfirst hblank, hgap', gap_ne_nil hne' htrimmed hstop,
    List.forall_mem_append.mpr ⟨hlast, hgap''⟩, ?_⟩
  calc key ++ tail = key ++ gap ++ name ++ after ++ gap'' := by
        rw [htail, hrest]
        simp only [List.append_assoc]
    _ = key ++ gap ++ name ++ (gap' ++ trim after ++ last) ++ gap'' := by rw [← hafter]
    _ = key ++ gap ++ name ++ gap' ++ trim after ++ (last ++ gap'') := by
        simp only [List.append_assoc]

theorem StyleText.readLine?_eq (h : StyleText line name declarations) :
    readLine? line = some (.style name declarations) := by
  obtain ⟨hne, hname, hne', htrim, key, gap, gap', gap'', hsame, hgap, hgapne, hgap', hgapne',
    hgap'', rfl⟩ := h
  have hinner : trim (name ++ (gap' ++ declarations)) = name ++ (gap' ++ declarations) := by
    obtain ⟨c, word, rfl⟩ := List.exists_cons_of_ne_nil hne
    rw [← List.append_assoc]
    exact trim_cons_append (hname c List.mem_cons_self) (word ++ gap') hne' htrim
  refine readLine?_style_iff.mpr ⟨name ++ (gap' ++ declarations), ?_, ?_, hne, hne'⟩
  · refine afterKeyword?_eq_some_iff.mpr ⟨key, gap ++ (name ++ (gap' ++ declarations)) ++ gap'',
      hsame, ?_, by simp only [List.append_assoc], ?_⟩
    · rw [List.append_assoc]
      exact head?_gap_append hgap hgapne _
    · rw [trim_gaps hgap hgap'', hinner]
  · refine splitWord_eq_iff.mpr
      ⟨gap' ++ declarations, hname, head?_gap_append hgap' hgapne' _, rfl, ?_⟩
    rw [← List.append_nil (gap' ++ declarations), trim_gaps hgap' (List.forall_mem_nil _), htrim]

theorem readLine?_eq_style_iff :
    readLine? line = some (.style name declarations) ↔ StyleText line name declarations :=
  ⟨styleText_of_readLine?, StyleText.readLine?_eq⟩

end Style

/-! ### Nodes -/

section Node

variable {line name gap label text : Text} {shape : Shape}

/-- A bracket is no blank, stands in no name and belongs to no keyword. -/
theorem ShapeText.cons (h : ShapeText label shape text) :
    ∃ c rest, text = c :: rest ∧ isBlank c = false ∧ isNameChar c = false ∧
      c.toLower ∉ "style".toList.map Char.toLower := by
  cases h <;> exact ⟨_, _, rfl, by decide, by decide, by decide⟩

theorem stripSuffix?_map_eq_some_iff {close inner : Text} {shape' : Shape} :
    (stripSuffix? close inner).map (·, shape') = some (label, shape) ↔
      inner = label ++ close ∧ shape' = shape := by
  rw [Option.map_eq_some_iff]
  constructor
  · rintro ⟨_, h, ⟨⟩⟩
    exact ⟨stripSuffix?_eq_some_iff.mp h, rfl⟩
  · rintro ⟨h, rfl⟩
    exact ⟨label, stripSuffix?_eq_some_iff.mpr h, rfl⟩

theorem bind_strip_eq_some_iff {inner : Text} :
    (stripPrefix? ['"'] inner).bind (stripSuffix? ['"', ']']) = some label ↔
      inner = '"' :: (label ++ ['"', ']']) := by
  rw [Option.bind_eq_some_iff]
  constructor
  · rintro ⟨quoted, hprefix, hsuffix⟩
    rw [stripPrefix?_eq_some_iff.mp hprefix, stripSuffix?_eq_some_iff.mp hsuffix]
    rfl
  · rintro rfl
    exact ⟨_, stripPrefix?_append ['"'] _, stripSuffix?_append label _⟩

theorem shapeText_of_readShape? (h : readShape? text = some (label, shape)) :
    ShapeText label shape text := by
  unfold readShape? at h
  split at h
  · obtain ⟨rfl, rfl⟩ := stripSuffix?_map_eq_some_iff.mp h
    exact .decision label
  · obtain ⟨rfl, rfl⟩ := stripSuffix?_map_eq_some_iff.mp h
    exact .terminator label
  · next inner =>
    split at h
    · next hquoted =>
      cases h
      rw [bind_strip_eq_some_iff.mp hquoted]
      exact .quoted label
    · next hbare =>
      obtain ⟨rfl, rfl⟩ := stripSuffix?_map_eq_some_iff.mp h
      refine .bare fun inner hlabel => ?_
      have hquoted : label ++ [']'] = '"' :: (inner ++ ['"', ']']) := by
        rw [hlabel]
        simp
      cases (bind_strip_eq_some_iff.mpr hquoted).symm.trans hbare
  · cases h

theorem readShape?_square (inner : Text) :
    readShape? ('[' :: inner) =
      match (stripPrefix? ['"'] inner).bind (stripSuffix? ['"', ']']) with
      | some label => some (label, .process)
      | none => (stripSuffix? [']'] inner).map (·, .process) := rfl

theorem ShapeText.readShape?_eq (h : ShapeText label shape text) :
    readShape? text = some (label, shape) := by
  cases h with
  | decision => exact stripSuffix?_map_eq_some_iff.mpr ⟨rfl, rfl⟩
  | terminator => exact stripSuffix?_map_eq_some_iff.mpr ⟨rfl, rfl⟩
  | quoted => rw [readShape?_square, bind_strip_eq_some_iff.mpr rfl]
  | bare h =>
    rw [readShape?_square]
    split
    · next inner hquoted =>
      have heq : label ++ [']'] = '"' :: (inner ++ ['"']) ++ [']'] := by
        rw [bind_strip_eq_some_iff.mp hquoted]
        simp
      exact absurd (List.append_cancel_right heq) (h inner)
    · exact stripSuffix?_map_eq_some_iff.mpr ⟨rfl, rfl⟩

theorem readLine?_node_iff :
    readLine? line = some (.node name label shape) ↔
      afterKeyword? "style".toList line = none ∧ (readName line).1 = name ∧ name ≠ [] ∧
        readArrow? (trimStart (readName line).2) = none ∧
        readShape? (trimStart (readName line).2) = some (label, shape) := by
  unfold readLine?
  cases afterKeyword? "style".toList line with
  | some rest =>
    refine iff_of_false (fun h => ?_) fun h => nomatch h.1
    dsimp only at h
    split at h <;> cases h
  | none =>
    dsimp only
    constructor
    · intro h
      split at h
      · cases h
      · next hne =>
        split at h
        · obtain ⟨_, _, _, -, -, -, he⟩ := readEdge?_eq_some_iff.mp h
          cases he
        · next harrow =>
          obtain ⟨_, hshape, he⟩ := Option.map_eq_some_iff.mp h
          cases he
          exact ⟨rfl, rfl, hne, harrow, hshape⟩
    · rintro ⟨-, rfl, hne, harrow, hshape⟩
      rw [if_neg hne, harrow]
      dsimp only
      rw [hshape]
      rfl

theorem nodeText_of_readLine? (h : readLine? line = some (.node name label shape)) :
    ∃ gap, NodeText line name gap label shape ∧
      (gap ≠ [] → sameIgnoringCase name "style".toList = false) := by
  obtain ⟨hkey, rfl, hne, -, hshape⟩ := readLine?_node_iff.mp h
  obtain ⟨gap, hgap, hrest⟩ := exists_gap (readName line).2
  have hline : line = (readName line).1 ++ gap ++ trimStart (readName line).2 := by
    rw [List.append_assoc, ← hrest, readName_append]
  refine ⟨gap, ⟨isName_readName hne, hgap, _, shapeText_of_readShape? hshape, hline⟩,
    fun hne' => eq_false_of_ne_true fun hsame => ?_⟩
  rw [hline, List.append_assoc] at hkey
  cases (afterKeyword?_append_blank hsame (head?_gap_append hgap hne' _)).symm.trans hkey

/-- The bracket of a shape ends the name before it, and begins no arrow. -/
theorem ShapeText.stop (h : ShapeText label shape text) :
    (∀ gap, Gap gap → ∀ c ∈ (gap ++ text).head?, isNameChar c = false) ∧
      trimStart text = text ∧ readArrow? text = none := by
  obtain ⟨c, rest, rfl, hblank, hmark, -⟩ := h.cons
  refine ⟨?_, trimStart_cons hblank rest, ?_⟩
  · rintro (_ | ⟨b, gap⟩) hgap d ⟨⟩
    · exact hmark
    · unfold isNameChar
      rw [hgap b List.mem_cons_self]
      rfl
  · refine readArrow?_eq_none_iff.mpr fun arrow ⟨tail, htail⟩ => ?_
    obtain ⟨d, sign, hsign, -⟩ := exists_arrowSign_cons arrow
    have hd : d = c := by
      rw [hsign] at htail
      exact (List.cons.inj htail).1
    have hname := isNameChar_arrowSign arrow d (by rw [hsign]; exact List.mem_cons_self)
    rw [hd, hmark] at hname
    cases hname

/-- Behind a name that no blank follows stands a bracket, which is in no keyword. -/
theorem NodeText.afterKeyword?_eq (h : NodeText line name gap label shape)
    (hstyle : gap ≠ [] → sameIgnoringCase name "style".toList = false) :
    afterKeyword? "style".toList line = none := by
  obtain ⟨text, htext, rfl⟩ := h.spelled
  by_cases hgap : gap = []
  · obtain ⟨c, rest, rfl, hblank, -, hletter⟩ := htext.cons
    rw [hgap, List.append_nil, List.append_cons]
    refine afterKeyword?_eq_none_of_mem (by decide) ?_ (List.mem_append_right _ List.mem_cons_self)
      hletter
    exact List.forall_mem_append.mpr ⟨h.isName.noBlank, List.forall_mem_singleton.mpr hblank⟩
  · rw [List.append_assoc]
    exact afterKeyword?_eq_none (by decide) h.isName.noBlank (head?_gap_append h.isGap hgap text)
      (hstyle hgap)

/-- A line is read as a node just if it is spelled like it, and does not begin like a style. -/
theorem readLine?_eq_node_iff :
    readLine? line = some (.node name label shape) ↔
      ∃ gap, NodeText line name gap label shape ∧
        (gap ≠ [] → sameIgnoringCase name "style".toList = false) := by
  refine ⟨nodeText_of_readLine?, ?_⟩
  rintro ⟨gap, h, hstyle⟩
  have hkey := h.afterKeyword?_eq hstyle
  obtain ⟨text, htext, rfl⟩ := h.spelled
  obtain ⟨hstop, htrim, harrow⟩ := htext.stop
  have hread : readName (name ++ gap ++ text) = (name, gap ++ text) := by
    rw [List.append_assoc]
    exact h.isName.readName_append (hstop gap h.isGap)
  refine readLine?_node_iff.mpr ⟨hkey, ?_⟩
  rw [hread]
  dsimp only
  rw [trimStart_gap h.isGap, htrim]
  exact ⟨rfl, h.isName.ne_nil, harrow, htext.readShape?_eq⟩

end Node

end DiagramDoc.Dialect.Flow
