import DiagramDoc.Proofs.Dialect.FlowchartNodes
import DiagramDoc.Proofs.Dialect.Line
import DiagramDoc.Proofs.Dialect.Name

/-!
# What the written lines of a flowchart say

The line of a node, of an edge or of a style is read as just that, whatever stands in its label.
-/

namespace DiagramDoc

namespace Dialect.Flow

open Text

/-! ### Names -/

theorem isBlank_of_mem_nodeName {id : Nat} {c : Char} (h : c ∈ nodeName id) :
    isBlank c = false := by
  rcases List.mem_cons.mp h with rfl | hd
  · decide
  · exact isBlank_of_isDigit (isDigit_of_mem_toText hd)

theorem isNameChar_of_isDigit {c : Char} (h : c.isDigit = true) : isNameChar c = true := by
  have hall : ∀ n : Fin 10, isNameChar (Digits.digit n) = true := by decide
  obtain ⟨n, rfl⟩ := Digits.exists_digit h
  exact hall n

theorem isName_nodeName (id : Nat) : IsName (nodeName id) := by
  have hdigits : ∀ c ∈ EntityId.toText id, c.isDigit = true := fun c hc => isDigit_of_mem_toText hc
  have hsign : ∀ arrow, ∃ c ∈ arrowSign arrow, c.isDigit = false := by
    intro arrow
    cases arrow <;> exact ⟨_, List.mem_cons_self, by decide⟩
  refine .of_isNameChar (List.cons_ne_nil _ _) (List.forall_mem_cons.mpr ⟨by decide, ?_⟩) ?_
  · exact fun c hc => isNameChar_of_isDigit (hdigits c hc)
  · intro arrow h
    obtain ⟨c, hc, hd⟩ := hsign arrow
    cases (hdigits c (h.subset hc)).symm.trans hd

theorem sameIgnoringCase_nodeName (id : Nat) :
    sameIgnoringCase (nodeName id) "style".toList = false := rfl

/-! ### Nodes, edges and styles -/

theorem shapeText_spec (shape : Shape) (label : Text) :
    ShapeText label shape (shapeText shape label) := by
  cases shape with
  | process => exact .quoted label
  | decision => exact .decision label
  | terminator => exact .terminator label

theorem readLine?_nodeLine (n : Node) :
    readLine? (nodeLine n) = some (.node (nodeName n.id) (escape n.label) n.shape) := by
  have hline : NodeText (nodeLine n) (nodeName n.id) [] (escape n.label) n.shape :=
    ⟨isName_nodeName _, List.forall_mem_nil _, _, shapeText_spec _ _, by
      rw [List.append_nil]
      rfl⟩
  exact readLine?_eq_node_iff.mpr ⟨[], hline, fun h => absurd rfl h⟩

def labelText? (e : Edge) : Option Text := if e.label = [] then none else some (escape e.label)

theorem unescape_labelText? (e : Edge) :
    unescape ((labelText? e).getD []) = unifyBreaks e.label := by
  unfold labelText?
  split
  · next h =>
    rw [h]
    rfl
  · exact unescape_escape e.label

/-- Bars in an escaped label are escaped, so the first one that is not is the one behind it. -/
theorem labelPart_escape (label : Text) :
    LabelPart (some (escape label)) ('|' :: (escape label ++ ['|', ' '])) := by
  have hcut : cutUnescaped? '|' (escape label ++ '|' :: []) = some (escape label, []) :=
    cutUnescaped?_escapeFor (.inr (.inl rfl)) (by decide) label []
  obtain ⟨-, hbars, hend⟩ := (cutUnescaped?_eq_some_iff (by decide)).mp hcut
  have hgap : Gap [' '] := List.forall_mem_singleton.mpr rfl
  exact .some hbars hend hgap

theorem edgeText_edgeLine (e : Edge) :
    EdgeText (edgeLine e) (nodeName e.source) [' '] e.arrow (labelText? e) (nodeName e.target) := by
  have hgap : Gap [' '] := List.forall_mem_singleton.mpr rfl
  refine ⟨isName_nodeName _, hgap, isName_nodeName _, ?_⟩
  unfold labelText? edgeLine
  split
  · exact ⟨[' '], [], hgap, .none, by simp⟩
  · exact ⟨[], _, List.forall_mem_nil _, labelPart_escape e.label, by simp⟩

theorem readLine?_edgeLine (e : Edge) :
    readLine? (edgeLine e) =
      some (.edge (nodeName e.source) e.arrow (labelText? e) (nodeName e.target)) :=
  readLine?_of_edgeText (edgeText_edgeLine e) (List.cons_ne_nil _ _) (sameIgnoringCase_nodeName _)

def styleText (n : Node) : Text :=
  "fill:".toList ++ n.fill ++ ",stroke:".toList ++ n.stroke ++ ",color:".toList ++ n.textColor

theorem styleLine_eq (n : Node) :
    styleLine n = "style ".toList ++ nodeName n.id ++ ' ' :: styleText n := by
  unfold styleLine styleText
  simp

theorem styleText_cons (n : Node) : ∃ t, styleText n = 'f' :: t := ⟨_, rfl⟩

/-- Trimming a style line shortens its declarations, at most after the last colon. -/
theorem trim_styleLine (n : Node) :
    trim (styleLine n) = "style ".toList ++ nodeName n.id ++ ' ' :: trimEnd (styleText n) := by
  obtain ⟨t, ht⟩ := styleText_cons n
  have hf : isBlank 'f' = false := by decide
  have hend : trimEnd ('f' :: t) = 'f' :: trimEnd t := trimEnd_append_cons hf [] t
  have hline : styleLine n = 's' :: ("tyle ".toList ++ nodeName n.id ++ [' '] ++ 'f' :: t) := by
    rw [styleLine_eq, ht]
    simp
  rw [hline, trim_cons (by decide), trimEnd_append_cons hf, ht, hend]
  simp

theorem readLine?_styleLine (n : Node) :
    readLine? (trim (styleLine n)) = some (.style (nodeName n.id) (trimEnd (styleText n))) := by
  have hgap : Gap [' '] := List.forall_mem_singleton.mpr rfl
  have htrim : trim (styleText n) = trimEnd (styleText n) := by
    obtain ⟨t, ht⟩ := styleText_cons n
    unfold trim
    rw [ht, trimStart_cons (by decide)]
  refine StyleText.readLine?_eq ⟨List.cons_ne_nil _ _, fun c hc => isBlank_of_mem_nodeName hc, ?_,
    ?_, "style".toList, [' '], [' '], [], rfl, hgap, List.cons_ne_nil _ _, hgap,
    List.cons_ne_nil _ _, List.forall_mem_nil _, ?_⟩
  · obtain ⟨t, ht⟩ := styleText_cons n
    rw [← htrim, ht, trim_cons (by decide)]
    exact List.cons_ne_nil _ _
  · rw [← htrim, trim_trim]
  · rw [trim_styleLine]
    simp

/-! ### The lines as they stand in a text -/

theorem lineFeed_not_mem_nodeName (id : Nat) : '\n' ∉ nodeName id := by
  have hd : '\n' ∉ EntityId.toText id := by
    intro h
    exact absurd (isDigit_of_mem_toText h) (by decide)
  exact List.not_mem_cons_of_ne_of_not_mem (by decide) hd

theorem lineFeed_not_mem_nodeLine (n : Node) : '\n' ∉ nodeLine n := by
  have hl : '\n' ∉ escape n.label := lineFeed_not_mem_escapeFor n.label
  unfold nodeLine shapeText
  cases n.shape <;> simp [lineFeed_not_mem_nodeName, hl]

theorem lineFeed_not_mem_edgeLine (e : Edge) : '\n' ∉ edgeLine e := by
  have hl : '\n' ∉ escape e.label := lineFeed_not_mem_escapeFor e.label
  have ha : '\n' ∉ arrowSign e.arrow := by cases e.arrow <;> decide
  unfold edgeLine
  split <;> simp [lineFeed_not_mem_nodeName, hl, ha]

theorem lineFeed_not_mem_styleLine {n : Node} (hf : '\n' ∉ n.fill) (hs : '\n' ∉ n.stroke)
    (ht : '\n' ∉ n.textColor) : '\n' ∉ styleLine n := by
  unfold styleLine
  simp [lineFeed_not_mem_nodeName, hf, hs, ht]

theorem trim_nodeLine (n : Node) : trim (nodeLine n) = nodeLine n := by
  have hb : isBlank 'N' = false := by decide
  have hline : ∃ t c, nodeLine n = 'N' :: (t ++ [c]) ∧ isBlank c = false := by
    unfold nodeLine
    cases n.shape with
    | process =>
      refine ⟨EntityId.toText n.id ++ '[' :: '"' :: (escape n.label ++ ['"']), ']', ?_, by decide⟩
      simp [nodeName, shapeText]
    | decision =>
      refine ⟨EntityId.toText n.id ++ '\x7b' :: escape n.label, '\x7d', ?_, by decide⟩
      simp [nodeName, shapeText]
    | terminator =>
      refine ⟨EntityId.toText n.id ++ '(' :: '[' :: (escape n.label ++ [']']), ')', ?_, by decide⟩
      simp [nodeName, shapeText]
  obtain ⟨t, c, hline, hc⟩ := hline
  rw [hline]
  exact trim_eq_self hb hc t

theorem trim_edgeLine (e : Edge) : trim (edgeLine e) = edgeLine e := by
  have hb : isBlank 'N' = false := by decide
  have hd : trimEnd (EntityId.toText e.target) = EntityId.toText e.target :=
    trimEnd_of_forall fun c hc => isBlank_of_isDigit (isDigit_of_mem_toText hc)
  have hline : ∃ t, edgeLine e = 'N' :: (t ++ 'N' :: EntityId.toText e.target) := by
    refine ⟨EntityId.toText e.source ++ ' ' :: arrowSign e.arrow ++
      (if e.label = [] then [] else '|' :: (escape e.label ++ ['|'])) ++ [' '], ?_⟩
    unfold edgeLine nodeName
    simp
  obtain ⟨t, hline⟩ := hline
  rw [hline, trim_cons hb, trimEnd_append_cons hb, hd]

theorem isContent_nodeLine (n : Node) : isContent (nodeLine n) = true :=
  isContent_cons (by decide) _

theorem isContent_edgeLine (e : Edge) : isContent (edgeLine e) = true :=
  isContent_cons (by decide) _

theorem isContent_styleLine (n : Node) : isContent (trim (styleLine n)) = true := by
  rw [trim_styleLine]
  exact isContent_cons (by decide) _

/-- The lines that count in the text of a chart. -/
def writtenLines (f : Flowchart) : List Text :=
  f.nodes.map nodeLine ++ (f.connectedEdges.map edgeLine ++
    f.nodes.map fun n => trim (styleLine n))

theorem contentLines_write {f : Flowchart}
    (h : ∀ n ∈ f.nodes, '\n' ∉ n.fill ∧ '\n' ∉ n.stroke ∧ '\n' ∉ n.textColor) :
    contentLines (write f) = "flowchart TD".toList :: writtenLines f := by
  have hlines : ∀ line ∈ f.nodes.map nodeLine ++ f.connectedEdges.map edgeLine ++
      f.nodes.map styleLine, '\n' ∉ line := by
    intro line hline
    rcases List.mem_append.mp hline with hline | hline
    · rcases List.mem_append.mp hline with hline | hline
      · obtain ⟨n, -, rfl⟩ := List.mem_map.mp hline
        exact lineFeed_not_mem_nodeLine n
      · obtain ⟨e, -, rfl⟩ := List.mem_map.mp hline
        exact lineFeed_not_mem_edgeLine e
    · obtain ⟨n, hn, rfl⟩ := List.mem_map.mp hline
      obtain ⟨hf, hs, ht⟩ := h n hn
      exact lineFeed_not_mem_styleLine hf hs ht
  have htrim : (f.nodes.map nodeLine ++ f.connectedEdges.map edgeLine ++
      f.nodes.map styleLine).map trim = writtenLines f := by
    unfold writtenLines
    rw [List.map_append, List.map_append, List.map_map, List.map_map, List.map_map,
      List.append_assoc]
    congr 1
    · exact List.map_congr_left fun n _ => trim_nodeLine n
    · congr 1
      exact List.map_congr_left fun e _ => trim_edgeLine e
  have hall : ∀ line ∈ writtenLines f, isContent line = true := by
    intro line hline
    rcases List.mem_append.mp hline with hline | hline
    · obtain ⟨n, -, rfl⟩ := List.mem_map.mp hline
      exact isContent_nodeLine n
    · rcases List.mem_append.mp hline with hline | hline
      · obtain ⟨e, -, rfl⟩ := List.mem_map.mp hline
        exact isContent_edgeLine e
      · obtain ⟨n, -, rfl⟩ := List.mem_map.mp hline
        exact isContent_styleLine n
  have hheader : trim "flowchart TD".toList = "flowchart TD".toList := by decide
  unfold write
  rw [contentLines_body (by decide) hlines, List.map_cons, htrim, hheader,
    List.filter_cons_of_pos (by decide), List.filter_eq_self.mpr hall]

end Dialect.Flow
end DiagramDoc
