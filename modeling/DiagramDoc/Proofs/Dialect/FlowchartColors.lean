import DiagramDoc.Proofs.Dialect.FlowchartNodes
import DiagramDoc.Proofs.Dialect.FlowchartRoundTrip
import DiagramDoc.Proofs.Text.Field
import Mathlib.Data.List.Nodup

/-!
# The colours of a flowchart in text

A style line lists the colours of a node between commas and colons, as they are. A colour that holds
neither comes back, and colours that were read from a text hold neither, so a chart that was read is
written the same way again.
-/

namespace DiagramDoc.Dialect.Flow

open Text

/-! ### Declarations -/

/-- A colour that a style line can say. -/
structure Color (t : Text) : Prop where
  ne : t ≠ []
  trimmed : trim t = t
  noComma : ',' ∉ t
  noColon : ':' ∉ t
  noFeed : '\n' ∉ t

structure Colored (n : Node) : Prop where
  fill : Color n.fill
  stroke : Color n.stroke
  textColor : Color n.textColor

theorem applyDeclaration_eq {key value : Text} (hk : ':' ∉ key) (hv : Color value) (node : Node) :
    applyDeclaration node (key ++ ':' :: value) =
      if trim key = "fill".toList then { node with fill := value }
      else if trim key = "stroke".toList then { node with stroke := value }
      else if trim key = "color".toList then { node with textColor := value }
      else node := by
  have hsplit : (splitOn ':' (key ++ ':' :: value)).map trim = [trim key, value] := by
    rw [splitOn_append_cons hk, splitOn_of_not_mem hv.noColon, List.map_cons, List.map_singleton,
      hv.trimmed]
  unfold applyDeclaration
  rw [hsplit]
  dsimp only
  rw [if_neg hv.ne]

/-- A node with the colours of another. -/
def recolor (source node : Node) : Node :=
  { node with fill := source.fill, stroke := source.stroke, textColor := source.textColor }

theorem trimEnd_styleText {n : Node} (h : Color n.textColor) :
    trimEnd (styleText n) = styleText n := by
  have hlast := (trim_eq_self_iff.mp h.trimmed).2
  refine trimEnd_eq_self fun c hc => hlast c ?_
  rcases List.eq_nil_or_concat n.textColor with he | ⟨s, d, hd⟩
  · exact absurd he h.ne
  · rw [List.concat_eq_append] at hd
    unfold styleText at hc
    rw [hd, ← List.append_assoc, List.getLast?_concat] at hc
    rw [hd, List.getLast?_concat]
    exact hc

theorem applyStyle_styleText {n : Node} (h : Colored n) (node : Node) :
    applyStyle (styleText n) node = recolor n node := by
  have hsplit : splitOn ',' (styleText n) =
      ["fill".toList ++ ':' :: n.fill, "stroke".toList ++ ':' :: n.stroke,
        "color".toList ++ ':' :: n.textColor] := by
    have hline : styleText n = ("fill".toList ++ ':' :: n.fill) ++
        ',' :: (("stroke".toList ++ ':' :: n.stroke) ++ ',' ::
          ("color".toList ++ ':' :: n.textColor)) := by
      unfold styleText
      simp
    have hf : ',' ∉ "fill".toList ++ ':' :: n.fill := by simp [h.fill.noComma]
    have hs : ',' ∉ "stroke".toList ++ ':' :: n.stroke := by simp [h.stroke.noComma]
    have hc : ',' ∉ "color".toList ++ ':' :: n.textColor := by simp [h.textColor.noComma]
    rw [hline, splitOn_append_cons hf, splitOn_append_cons hs, splitOn_of_not_mem hc]
  unfold applyStyle
  rw [hsplit, List.foldl_cons, List.foldl_cons, List.foldl_cons, List.foldl_nil,
    applyDeclaration_eq (by decide) h.fill, applyDeclaration_eq (by decide) h.stroke,
    applyDeclaration_eq (by decide) h.textColor]
  rfl

/-! ### All styles of a chart -/

theorem id_applyStyle (declarations : Text) (node : Node) :
    (applyStyle declarations node).id = node.id := by
  have h := congrArg Node.id (uncolored_applyStyle declarations node)
  exact h

theorem label_applyStyle (declarations : Text) (node : Node) :
    (applyStyle declarations node).label = node.label := by
  have h := congrArg Node.label (uncolored_applyStyle declarations node)
  exact h

/-- The styles of nodes, in turn, reach the nodes of the same identifiers. -/
theorem foldl_styleNode {names : List (Text × Nat)} {nodes : List Node} (declarations : Node → Text)
    (done : List Node) (scope : Scope) (hd : (Entity.ids nodes).Nodup)
    (hdone : ∀ id ∈ Entity.ids nodes, id ∉ Entity.ids done)
    (hnames : ∀ id ∈ Entity.ids nodes, lookup? names (nodeName id) = some id) :
    (nodes.map fun n => (nodeName n.id, declarations n)).foldl (styleNode names)
        (done ++ nodes.map placed, scope) =
      (done ++ nodes.map fun n => applyStyle (declarations n) (placed n), scope) := by
  induction nodes generalizing done with
  | nil => rfl
  | cons n nodes ih =>
    obtain ⟨hnew, hd⟩ := List.nodup_cons.mp hd
    obtain ⟨hfree, hdone⟩ := List.forall_mem_cons.mp hdone
    obtain ⟨hname, hnames⟩ := List.forall_mem_cons.mp hnames
    have hstyle : styleNode names (done ++ placed n :: nodes.map placed, scope)
          (nodeName n.id, declarations n) =
        (done ++ [applyStyle (declarations n) (placed n)] ++ nodes.map placed, scope) := by
      have hname : lookup? names (nodeName n.id) = some n.id := hname
      have hupdate : Entity.update? (applyStyle (declarations n)) n.id
            (done ++ placed n :: nodes.map placed) =
          some (done ++ applyStyle (declarations n) (placed n) :: nodes.map placed) :=
        Entity.update?_append_cons (x := placed n) rfl hfree _ _
      unfold styleNode
      rw [hname]
      dsimp only
      rw [hupdate, List.append_assoc, List.singleton_append]
    have hnext : ∀ id ∈ Entity.ids nodes,
        id ∉ Entity.ids (done ++ [applyStyle (declarations n) (placed n)]) := by
      intro id hmem
      rw [Entity.ids_append, List.mem_append, not_or]
      refine ⟨hdone id hmem, fun hm => hnew ?_⟩
      have he : id = Entity.id n := (List.mem_singleton.mp hm).trans (id_applyStyle _ (placed n))
      rw [← he]
      exact hmem
    simp only [List.map_cons, List.foldl_cons]
    rw [hstyle, ih _ hd hnext hnames, List.append_assoc, List.singleton_append]

/-- A node as it is read from its line and its style line. -/
def restyled (n : Node) : Node := applyStyle (trimEnd (styleText n)) (placed n)

theorem id_restyled (n : Node) : (restyled n).id = n.id := id_applyStyle _ (placed n)

theorem restyled_eq {n : Node} (h : Colored n) :
    restyled n = { n with label := unifyBreaks n.label } := by
  unfold restyled
  rw [trimEnd_styleText h.textColor, applyStyle_styleText h]
  rfl

section Chart

variable {f : Flowchart} {scope : Scope} (hd : (Entity.ids f.nodes).Nodup)
  (hn : ∀ id ∈ Entity.ids f.nodes, EntityId.InRange id ∧ id ∉ scope.reserved)
  (hclaimed : scope.claimed = [])

include hd hn hclaimed

/-- Every node of a chart comes back with what its style line says. -/
theorem nodes_read_writtenLines :
    (read (writtenLines f) scope f).1.nodes = f.nodes.map restyled := by
  obtain ⟨scope', edges, hdraft, -⟩ := readLines_writtenLines hd hn hclaimed
  have hfind : ∀ n ∈ f.nodes, f.node? n.id = some n := fun n hm => Entity.find?_id hd hm
  have hnames : ∀ id ∈ Entity.ids f.nodes,
      lookup? (names ((Entity.ids f.nodes).reverse ++ [])) (nodeName id) = some id :=
    fun id hid => lookup?_names_of_mem (by simpa using hid)
  have hfold := foldl_styleNode (fun n => trimEnd (styleText n)) [] scope' hd
    (fun _ _ => List.not_mem_nil) hnames
  unfold read
  rw [hdraft]
  dsimp only
  rw [settleFrom_declared hfind, ← List.nil_append (f.nodes.map placed), hfold]
  rfl

end Chart

/-! ### Charts that were read -/

theorem color_default : Color "#F2F2F2".toList ∧ Color "#333333".toList ∧ Color "#111111".toList := by
  refine ⟨⟨?_, ?_, ?_, ?_, ?_⟩, ⟨?_, ?_, ?_, ?_, ?_⟩, ⟨?_, ?_, ?_, ?_, ?_⟩⟩ <;> decide

theorem colored_new (id : Nat) (label : Text) (shape : Shape) : Colored { id, label, shape } :=
  ⟨color_default.1, color_default.2.1, color_default.2.2⟩

/-- What lines without carriage returns make of a chart. -/
structure Draft.Settled (d : Draft) : Prop where
  nodes : ∀ n ∈ d.nodes, '\r' ∉ n.label ∧ Colored n
  edges : ∀ e ∈ d.edges, '\r' ∉ e.label
  styles : ∀ style ∈ d.styles, '\n' ∉ style.2

theorem settled_mention {d : Draft} {name : Text} (hd : d.Settled) (hn : '\r' ∉ name) :
    (d.mention name).2.Settled := by
  unfold Draft.mention Draft.resolve
  cases lookup? d.names name with
  | some id => exact hd
  | none =>
    exact ⟨List.forall_mem_append.mpr ⟨hd.nodes,
      List.forall_mem_singleton.mpr ⟨hn, colored_new _ _ _⟩⟩, hd.edges, hd.styles⟩

theorem settled_declare {d : Draft} {name label : Text} (shape : Shape) (hd : d.Settled)
    (hl : '\r' ∉ label) : (d.declare name label shape).Settled := by
  unfold Draft.declare Draft.resolve
  cases lookup? d.names name with
  | some id =>
    simp only [Bool.false_eq_true, if_false]
    split
    · next nodes hu =>
      have hnodes := Entity.forall_mem_updateLast? (P := fun n : Node => '\r' ∉ n.label ∧ Colored n)
        (f := fun n : Node => { n with label, shape })
        (fun n hn => ⟨hl, hn.2.fill, hn.2.stroke, hn.2.textColor⟩) hd.nodes hu
      exact ⟨hnodes, hd.edges, hd.styles⟩
    · exact hd
  | none =>
    exact ⟨List.forall_mem_append.mpr ⟨hd.nodes,
      List.forall_mem_singleton.mpr ⟨hl, colored_new _ _ _⟩⟩, hd.edges, hd.styles⟩

/-- The parts of a line are made of its characters. -/
def PartsIn (line : Text) : Line → Prop
  | .style _ declarations => ∀ c ∈ declarations, c ∈ line
  | .edge source _ label target =>
    (∀ c ∈ source, c ∈ line) ∧ (∀ c ∈ label.getD [], c ∈ line) ∧ ∀ c ∈ target, c ∈ line
  | .node name label _ => (∀ c ∈ name, c ∈ line) ∧ ∀ c ∈ label, c ∈ line

theorem LabelPart.subset {label : Option Text} {part : Text} (h : LabelPart label part) :
    ∀ c ∈ label.getD [], c ∈ part := by
  cases h with
  | none => exact fun c hc => absurd hc List.not_mem_nil
  | some => exact fun c hc => List.mem_cons_of_mem _ (List.mem_append_left _ hc)

theorem ShapeText.subset {label text : Text} {shape : Shape} (h : ShapeText label shape text) :
    ∀ c ∈ label, c ∈ text := by
  cases h <;> exact fun c hc => by simp [hc]

theorem partsIn_readLine? {line : Text} {l : Line} (h : readLine? line = some l) :
    PartsIn line l := by
  cases l with
  | style name declarations =>
    obtain ⟨key, gap, gap', gap'', -, -, -, -, -, -, rfl⟩ := (readLine?_eq_style_iff.mp h).spelled
    exact fun c hc => List.mem_append_left _ (List.mem_append_right _ hc)
  | edge source arrow label target =>
    obtain ⟨gap, hline⟩ := edgeText_of_readLine? h
    obtain ⟨gap', part, -, hpart, rfl⟩ := hline.spelled
    have hlabel := hpart.subset
    exact ⟨fun c hc => by simp [hc], fun c hc => by simp [hlabel c hc], fun c hc => by simp [hc]⟩
  | node name label shape =>
    obtain ⟨gap, hline, -⟩ := readLine?_eq_node_iff.mp h
    obtain ⟨text, htext, rfl⟩ := hline.spelled
    have hlabel := htext.subset
    exact ⟨fun c hc => by simp [hc], fun c hc => List.mem_append_right _ (hlabel c hc)⟩

/-- One line keeps a draft settled. -/
theorem settled_readLine {d : Draft} {line : Text} (hd : d.Settled) (hr : '\r' ∉ line)
    (hn : '\n' ∉ line) : (d.readLine line).Settled := by
  have hunescape : ∀ t : Text, (∀ c ∈ t, c ∈ line) → '\r' ∉ unescape t :=
    fun t ht hm => hr (ht _ ((mem_unescape hm).resolve_left (by decide)))
  cases h : readLine? line with
  | none =>
    unfold Draft.readLine
    rw [h]
    exact ⟨hd.nodes, hd.edges, hd.styles⟩
  | some l =>
    have hp := partsIn_readLine? h
    unfold Draft.readLine
    rw [h]
    cases l with
    | style name declarations =>
      exact ⟨hd.nodes, hd.edges, List.forall_mem_append.mpr ⟨hd.styles,
        List.forall_mem_singleton.mpr fun hm => hn (hp _ hm)⟩⟩
    | edge source arrow label target =>
      obtain ⟨hs, hl, ht⟩ := hp
      have h := settled_mention (settled_mention hd fun hm => hr (hs _ hm)) fun hm => hr (ht _ hm)
      exact ⟨h.nodes, List.forall_mem_append.mpr
        ⟨h.edges, List.forall_mem_singleton.mpr (hunescape _ hl)⟩, h.styles⟩
    | node name label shape => exact settled_declare shape hd (hunescape label hp.2)

theorem settled_readLines {lines : List Text} {d : Draft} (hd : d.Settled)
    (hl : ∀ line ∈ lines, '\r' ∉ line ∧ '\n' ∉ line) :
    (lines.foldl Draft.readLine d).Settled := by
  induction lines generalizing d with
  | nil => exact hd
  | cons line lines ih =>
    obtain ⟨⟨hr, hn⟩, hrest⟩ := List.forall_mem_cons.mp hl
    exact ih (settled_readLine hd hr hn) hrest

/-! ### The colours of a chart that was read -/

theorem colored_applyDeclaration {n : Node} {declaration : Text} (hn : Colored n)
    (hc : ',' ∉ declaration) (hf : '\n' ∉ declaration) :
    Colored (applyDeclaration n declaration) := by
  unfold applyDeclaration
  split
  · next key value rest hs =>
    split
    · exact hn
    · next hne =>
      have hm : value ∈ (splitOn ':' declaration).map trim := by
        rw [hs]
        exact List.mem_cons_of_mem _ List.mem_cons_self
      obtain ⟨piece, hp, rfl⟩ := List.mem_map.mp hm
      have hsub : ∀ c ∈ trim piece, c ∈ declaration := fun c hc =>
        mem_of_mem_splitOn ':' declaration piece hp c (mem_of_mem_trim hc)
      have hcolor : Color (trim piece) := {
        ne := hne
        trimmed := trim_trim piece
        noComma := fun hm => hc (hsub _ hm)
        noColon := fun hm =>
          not_mem_of_mem_splitOn ':' declaration piece hp (mem_of_mem_trim hm)
        noFeed := fun hm => hf (hsub _ hm) }
      split
      · exact ⟨hcolor, hn.stroke, hn.textColor⟩
      · split
        · exact ⟨hn.fill, hcolor, hn.textColor⟩
        · split
          · exact ⟨hn.fill, hn.stroke, hcolor⟩
          · exact hn
  · exact hn

theorem colored_applyStyle {n : Node} {declarations : Text} (hn : Colored n)
    (hf : '\n' ∉ declarations) : Colored (applyStyle declarations n) := by
  have hall : ∀ declaration ∈ splitOn ',' declarations,
      ',' ∉ declaration ∧ '\n' ∉ declaration := fun declaration hd =>
    ⟨not_mem_of_mem_splitOn ',' declarations declaration hd,
      fun hm => hf (mem_of_mem_splitOn ',' declarations declaration hd _ hm)⟩
  unfold applyStyle
  generalize splitOn ',' declarations = parts at hall ⊢
  induction parts generalizing n with
  | nil => exact hn
  | cons declaration rest ih =>
    obtain ⟨⟨hc, hd⟩, hrest⟩ := List.forall_mem_cons.mp hall
    exact ih (colored_applyDeclaration hn hc hd) hrest

theorem settled_styles {styles : List (Text × Text)} {names : List (Text × Nat)}
    {state : List Node × Scope} (hn : ∀ n ∈ state.1, '\r' ∉ n.label ∧ Colored n)
    (hs : ∀ style ∈ styles, '\n' ∉ style.2) :
    ∀ n ∈ (styles.foldl (styleNode names) state).1, '\r' ∉ n.label ∧ Colored n := by
  induction styles generalizing state with
  | nil => exact hn
  | cons style styles ih =>
    obtain ⟨hstyle, hs⟩ := List.forall_mem_cons.mp hs
    refine ih ?_ hs
    unfold styleNode
    split
    · exact hn
    · split
      · next nodes hu =>
        refine Entity.forall_mem_update? (fun n hn => ⟨?_, colored_applyStyle hn.2 hstyle⟩) hn hu
        rw [label_applyStyle]
        exact hn.1
      · exact hn

/-- A chart that was read has plain colours, and no carriage return in any label. -/
structure SettledChart (f : Flowchart) : Prop where
  nodes : ∀ n ∈ f.nodes, '\r' ∉ n.label ∧ Colored n
  edges : ∀ e ∈ f.edges, '\r' ∉ e.label

theorem forall_mem_settleFrom {P : Node → Prop} (previous : Flowchart)
    (hp : ∀ index n, P n → P (settle previous index n)) {nodes : List Node} (h : ∀ n ∈ nodes, P n)
    (index : Nat) : ∀ n ∈ settleFrom previous index nodes, P n := by
  induction nodes generalizing index with
  | nil => exact h
  | cons n nodes ih =>
    obtain ⟨hn, h⟩ := List.forall_mem_cons.mp h
    exact List.forall_mem_cons.mpr ⟨hp index n hn, ih h (index + 1)⟩

theorem settled_read {lines : List Text} (hl : ∀ line ∈ lines, '\r' ∉ line ∧ '\n' ∉ line)
    (scope : Scope) (previous : Flowchart) : SettledChart (read lines scope previous).1 := by
  have hd := settled_readLines (d := { scope })
    ⟨fun n hn => absurd hn List.not_mem_nil, fun e he => absurd he List.not_mem_nil,
      fun s hs => absurd hs List.not_mem_nil⟩ hl
  have hsettle : ∀ n ∈ settleFrom previous 0 (lines.foldl Draft.readLine { scope }).nodes,
      '\r' ∉ n.label ∧ Colored n := by
    refine forall_mem_settleFrom previous (fun index n hn => ?_) hd.nodes 0
    unfold settle
    split <;> exact ⟨hn.1, hn.2.fill, hn.2.stroke, hn.2.textColor⟩
  exact ⟨settled_styles hsettle hd.styles, hd.edges⟩

/-! ### Writing again -/

/-- A chart that was read is written as it is when it was read again. -/
theorem write_read {f : Flowchart} {scope : Scope} (hd : (Entity.ids f.nodes).Nodup)
    (hn : ∀ id ∈ Entity.ids f.nodes, EntityId.InRange id ∧ id ∉ scope.reserved)
    (hclaimed : scope.claimed = []) (h : SettledChart f) :
    write (read (writtenLines f) scope f).1 = write f := by
  have hnodes : (read (writtenLines f) scope f).1.nodes = f.nodes := by
    rw [nodes_read_writtenLines hd hn hclaimed]
    refine (List.map_congr_left fun n hm => ?_).trans (List.map_id _)
    rw [restyled_eq (h.nodes n hm).2, unifyBreaks_of_not_mem (h.nodes n hm).1]
    rfl
  have hedges : (read (writtenLines f) scope f).1.edges.map bare = f.connectedEdges.map bare := by
    rw [(read_writtenLines hd hn hclaimed).2]
    refine List.map_congr_left fun e he => ?_
    rw [unifyBreaks_of_not_mem (h.edges e (mem_connectedEdges he).1)]
  -- The edges that come back have the ends of those written, so all of them are written.
  have hall : (read (writtenLines f) scope f).1.connectedEdges =
      (read (writtenLines f) scope f).1.edges := by
    refine List.filter_eq_self.mpr fun e he => ?_
    have hm : bare e ∈ f.connectedEdges.map bare := hedges ▸ List.mem_map_of_mem he
    obtain ⟨old, hold, hsame⟩ := List.mem_map.mp hm
    obtain ⟨-, hs, ht⟩ := mem_connectedEdges hold
    have hsource : (bare e).source = (bare old).source := congrArg Edge.source hsame.symm
    have htarget : (bare e).target = (bare old).target := congrArg Edge.target hsame.symm
    change e.source = old.source at hsource
    change e.target = old.target at htarget
    rw [Flowchart.joins_iff, hnodes, hsource, htarget]
    exact ⟨hs, ht⟩
  have hlines : ∀ edges : List Edge, (edges.map bare).map edgeLine = edges.map edgeLine := by
    intro edges
    rw [List.map_map]
    rfl
  have hsame : (read (writtenLines f) scope f).1.edges.map edgeLine =
      f.connectedEdges.map edgeLine := by
    rw [← hlines, hedges, hlines]
  unfold write
  rw [hall, hnodes, hsame]

/-! ### Charts with any colours -/

def colors (n : Node) : List Text := [n.fill, n.stroke, n.textColor]

/-- A colour that a style line holds whole, though it may hold a separator of the line. -/
structure Shade (t : Text) : Prop where
  ne : t ≠ []
  trimmed : trim t = t
  noFeed : '\n' ∉ t

instance (t : Text) : Decidable (Shade t) :=
  decidable_of_iff (t ≠ [] ∧ trim t = t ∧ '\n' ∉ t)
    ⟨fun ⟨hne, ht, hn⟩ => ⟨hne, ht, hn⟩, fun ⟨hne, ht, hn⟩ => ⟨hne, ht, hn⟩⟩

theorem color_iff {t : Text} (h : Shade t) : Color t ↔ ',' ∉ t ∧ ':' ∉ t :=
  ⟨fun hc => ⟨hc.noComma, hc.noColon⟩,
    fun ⟨hcomma, hcolon⟩ => ⟨h.ne, h.trimmed, hcomma, hcolon, h.noFeed⟩⟩

theorem forall_mem_colors {P : Text → Prop} {n : Node} :
    (∀ color ∈ colors n, P color) ↔ P n.fill ∧ P n.stroke ∧ P n.textColor := by
  unfold colors
  rw [List.forall_mem_cons, List.forall_mem_cons, List.forall_mem_singleton]

theorem colored_iff {n : Node} : Colored n ↔ ∀ color ∈ colors n, Color color := by
  rw [forall_mem_colors]
  exact ⟨fun ⟨hf, hs, ht⟩ => ⟨hf, hs, ht⟩, fun ⟨hf, hs, ht⟩ => ⟨hf, hs, ht⟩⟩

theorem lineFeed_not_mem_styleText {n : Node} (h : ∀ color ∈ colors n, '\n' ∉ color) :
    '\n' ∉ styleText n := by
  obtain ⟨hf, hs, ht⟩ := forall_mem_colors.mp h
  unfold styleText
  simp [hf, hs, ht]

/-- Whatever the colours of a node are, those that it is read with hold no separator. -/
theorem colored_restyled {n : Node} (h : ∀ color ∈ colors n, '\n' ∉ color) :
    Colored (restyled n) :=
  colored_applyStyle ⟨color_default.1, color_default.2.1, color_default.2.2⟩
    fun hm => lineFeed_not_mem_styleText h ((trimEnd_isPrefixOf _).subset hm)

theorem colors_restyled {n : Node} (h : ∀ color ∈ colors n, Shade color) :
    colors (restyled n) = colors n ↔ ∀ color ∈ colors n, ',' ∉ color ∧ ':' ∉ color := by
  constructor
  · intro heq color hcolor
    have hc := colored_iff.mp (colored_restyled fun color hm => (h color hm).noFeed)
    exact (color_iff (h color hcolor)).mp (hc color (heq ▸ hcolor))
  · intro hplain
    have hc : Colored n :=
      colored_iff.mpr fun color hm => (color_iff (h color hm)).mpr (hplain color hm)
    rw [restyled_eq hc]
    rfl

end DiagramDoc.Dialect.Flow

namespace DiagramDoc.Diagram

open Dialect

theorem Valid.nodes_readText_writeText {d : Diagram} (hv : d.Valid) (hk : d.kind = .flowchart)
    (hc : d.counter ≤ 0x20000000000000)
    (hl : ∀ n ∈ d.flowchart.nodes, ∀ color ∈ Flow.colors n, '\n' ∉ color) :
    ∃ e, readText d.writeText d = .ok e ∧ e.kind = .flowchart ∧
      e.flowchart.nodes = d.flowchart.nodes.map Flow.restyled := by
  have htext : d.writeText = Flow.write d.flowchart := by
    unfold writeText
    rw [hk]
  have hheader : Grammar.ofHeader "flowchart TD".toList = .headed .flowchart := by decide
  have hchart : d.reconcile.flowchart = d.flowchart := by rw [hv.reconcile_eq]; rfl
  have hlines := Flow.contentLines_write fun n hn => Flow.forall_mem_colors.mp (hl n hn)
  obtain ⟨hnodup, hfree⟩ := hv.nodes_free hc
  obtain ⟨counter, hread⟩ := readText_headed hlines hheader d
  refine ⟨_, htext ▸ hread, rfl, ?_⟩
  unfold readChart
  dsimp only
  rw [hchart]
  exact Flow.nodes_read_writtenLines hnodup hfree rfl

/-- Reading the text of a valid flowchart back gives nodes with the same identifiers, and a node has
the colours it had just if none of them holds a comma or a colon. -/
theorem colors_readText_writeText {d : Diagram} (hv : d.Valid) (hk : d.kind = .flowchart)
    (hc : d.counter ≤ 0x20000000000000)
    (hs : ∀ n ∈ d.flowchart.nodes, ∀ color ∈ Flow.colors n, Flow.Shade color) :
    ∃ e, readText d.writeText d = .ok e ∧ e.kind = .flowchart ∧
      Entity.ids e.flowchart.nodes = Entity.ids d.flowchart.nodes ∧
      ∀ n ∈ d.flowchart.nodes, ∀ m ∈ e.flowchart.nodes, m.id = n.id →
        (Flow.colors m = Flow.colors n ↔ ∀ color ∈ Flow.colors n, ',' ∉ color ∧ ':' ∉ color) := by
  obtain ⟨e, he, hkind, hnodes⟩ :=
    hv.nodes_readText_writeText hk hc fun n hn color hm => (hs n hn color hm).noFeed
  refine ⟨e, he, hkind, ?_, ?_⟩
  · rw [hnodes]
    unfold Entity.ids
    rw [List.map_map]
    exact List.map_congr_left fun n _ => Flow.id_restyled n
  · intro n hn m hm hid
    rw [hnodes] at hm
    obtain ⟨old, hold, rfl⟩ := List.mem_map.mp hm
    rw [Flow.id_restyled] at hid
    cases List.inj_on_of_nodup_map (hv.nodes_free hc).1 hold hn hid
    exact Flow.colors_restyled (hs n hn)

/-- Two nodes with colours that a style line can say, between them one in functional notation. -/
def tinted : Diagram where
  counter := 4
  flowchart :=
    { nodes :=
        [{ id := 1, label := "A".toList, fill := "light blue".toList, stroke := "#abc".toList },
         { id := 2, label := "B".toList, fill := "rgb(1,2,3)".toList },
         { id := 3, label := "C".toList, textColor := "fill=none; x".toList }] }

theorem colors_readText_writeText_tinted :
    ∃ e, readText tinted.writeText tinted = .ok e ∧ e.kind = .flowchart ∧
      Entity.ids e.flowchart.nodes = Entity.ids tinted.flowchart.nodes ∧
      ∀ n ∈ tinted.flowchart.nodes, ∀ m ∈ e.flowchart.nodes, m.id = n.id →
        (Flow.colors m = Flow.colors n ↔ ∀ color ∈ Flow.colors n, ',' ∉ color ∧ ':' ∉ color) :=
  colors_readText_writeText ⟨by decide, by decide, by decide⟩ rfl (by decide) (by decide)

/-- A style line cuts a colour at its first comma. -/
theorem not_colors_readText_writeText :
    ¬ ∀ d : Diagram, d.Valid → d.kind = .flowchart → d.counter ≤ 0x20000000000000 →
      (∀ n ∈ d.flowchart.nodes, ∀ color ∈ Flow.colors n, Flow.Shade color) →
      ∃ e, readText d.writeText d = .ok e ∧
        ∀ m ∈ e.flowchart.nodes, ∃ n ∈ d.flowchart.nodes,
          m.id = n.id ∧ Flow.colors m = Flow.colors n := by
  intro h
  have hv : tinted.Valid := ⟨by decide, by decide, by decide⟩
  have hs : ∀ n ∈ tinted.flowchart.nodes, ∀ color ∈ Flow.colors n, Flow.Shade color := by decide
  obtain ⟨e, he, -, hnodes⟩ := hv.nodes_readText_writeText rfl (by decide)
    fun n hn color hm => (hs n hn color hm).noFeed
  obtain ⟨e', he', hsame⟩ := h tinted hv rfl (by decide) hs
  cases he.symm.trans he'
  rw [hnodes, List.forall_mem_map] at hsame
  -- The node in the middle is the only one with its identifier.
  have hn : tinted.flowchart.nodes[1] ∈ tinted.flowchart.nodes := List.getElem_mem _
  obtain ⟨n, hmem, hid, hcolors⟩ := hsame _ hn
  rw [Flow.id_restyled] at hid
  cases List.inj_on_of_nodup_map (hv.nodes_free (by decide)).1 hn hmem hid
  have hplain := (Flow.colors_restyled (hs _ hn)).mp hcolors
  exact absurd hplain (by decide)

end DiagramDoc.Diagram
