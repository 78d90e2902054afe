import DiagramDoc.Proofs.Dialect.FlowchartLines
import DiagramDoc.Proofs.Dialect.ReadText

/-!
# Reading a written flowchart back

The lines of the nodes come first, so every node asks for its own identifier while that is still
free. Edges then name nodes that are known, and styles change nothing but colours.
-/

namespace DiagramDoc

namespace Dialect

open Text

namespace Flow

/-! ### Names of written nodes -/

def names (ids : List Nat) : List (Text × Nat) := literalNames 'N' ids

theorem allot_nodeName {s : Scope} {id : Nat} (h : EntityId.InRange id) (hr : id ∉ s.reserved)
    (hc : id ∉ s.claimed) :
    (s.allot 'N' (nodeName id)).1 = id ∧ (s.allot 'N' (nodeName id)).2.reserved = s.reserved ∧
      (s.allot 'N' (nodeName id)).2.claimed = id :: s.claimed :=
  allot_literalName 'N' h hr hc

theorem lookup?_names_of_mem {ids : List Nat} {id : Nat} (h : id ∈ ids) :
    lookup? (names ids) (nodeName id) = some id := lookup?_literalNames_of_mem 'N' h

theorem lookup?_names_of_not_mem {ids : List Nat} {id : Nat} (h : id ∉ ids) :
    lookup? (names ids) (nodeName id) = none := lookup?_literalNames_of_not_mem 'N' h

/-! ### One line -/

namespace Draft

variable {d : Draft} {line name label : Text}

theorem readLine_node {shape : Shape} (h : readLine? line = some (.node name label shape)) :
    d.readLine line = d.declare name (unescape label) shape := by
  unfold readLine
  rw [h]

theorem readLine_edge {source target : Text} {arrow : Arrow} {label : Option Text}
    (h : readLine? line = some (.edge source arrow label target)) :
    d.readLine line = d.addEdge source arrow label target := by
  unfold readLine
  rw [h]

theorem readLine_style {declarations : Text}
    (h : readLine? line = some (.style name declarations)) :
    d.readLine line = { d with styles := d.styles ++ [(name, declarations)] } := by
  unfold readLine
  rw [h]

theorem declare_new {shape : Shape} (h : lookup? d.names name = none) :
    d.declare name label shape =
      { d with
        scope := (d.scope.allot 'N' name).2
        names := (name, (d.scope.allot 'N' name).1) :: d.names
        nodes := d.nodes ++ [{ id := (d.scope.allot 'N' name).1, label, shape }] } := by
  unfold declare resolve
  rw [h]
  rfl

theorem mention_known {id : Nat} (h : lookup? d.names name = some id) :
    d.mention name = (id, d) := by
  unfold mention resolve
  rw [h]
  rfl

end Draft

/-! ### The lines of nodes -/

/-- A node as its line declares it. -/
def declared (n : Node) : Node := { id := n.id, label := unifyBreaks n.label, shape := n.shape }

/-- The draft has handed out just these identifiers, each to its own name. -/
structure Draft.Named (d : Draft) (ids : List Nat) : Prop where
  names : d.names = Flow.names ids
  claimed : d.scope.claimed = ids

theorem readLine_nodeLine {d : Draft} {ids : List Nat} {n : Node} (h : d.Named ids)
    (hn : EntityId.InRange n.id) (hr : n.id ∉ d.scope.reserved) (hi : n.id ∉ ids) :
    ∃ scope, d.readLine (nodeLine n) =
        { d with scope, names := names (n.id :: ids), nodes := d.nodes ++ [declared n] } ∧
      scope.reserved = d.scope.reserved ∧ scope.claimed = n.id :: ids := by
  have hl : lookup? d.names (nodeName n.id) = none := by
    rw [h.names]
    exact lookup?_names_of_not_mem hi
  obtain ⟨hid, hres, hclaim⟩ := allot_nodeName hn hr (h.claimed ▸ hi)
  refine ⟨(d.scope.allot 'N' (nodeName n.id)).2, ?_, hres, h.claimed ▸ hclaim⟩
  rw [Draft.readLine_node (readLine?_nodeLine n), Draft.declare_new hl, hid, unescape_escape,
    h.names]
  rfl

theorem readLines_nodeLine {nodes : List Node} {d : Draft} {ids : List Nat} (h : d.Named ids)
    (hn : ∀ id ∈ Entity.ids nodes, EntityId.InRange id ∧ id ∉ d.scope.reserved ∧ id ∉ ids)
    (hd : (Entity.ids nodes).Nodup) :
    ∃ scope, (nodes.map nodeLine).foldl Draft.readLine d =
      { d with
        scope
        names := names ((Entity.ids nodes).reverse ++ ids)
        nodes := d.nodes ++ nodes.map declared } := by
  induction nodes generalizing d ids with
  | nil =>
    refine ⟨d.scope, ?_⟩
    rw [List.map_nil, List.foldl_nil, List.map_nil, List.append_nil, Entity.ids_nil,
      List.reverse_nil, List.nil_append, ← h.names]
  | cons n nodes ih =>
    obtain ⟨⟨hrange, hres, hfree⟩, hrest⟩ := List.forall_mem_cons.mp hn
    obtain ⟨hnew, hd⟩ := List.nodup_cons.mp hd
    obtain ⟨scope, hline, hreserved, hclaimed⟩ := readLine_nodeLine h hrange hres hfree
    have hnamed : (d.readLine (nodeLine n)).Named (n.id :: ids) := by
      rw [hline]
      exact ⟨rfl, hclaimed⟩
    -- The identifier that this line claimed is none that the lines after it ask for.
    have hfree' : ∀ id ∈ Entity.ids nodes, EntityId.InRange id ∧
        id ∉ (d.readLine (nodeLine n)).scope.reserved ∧ id ∉ n.id :: ids := by
      intro id hid
      obtain ⟨hr, hres, hni⟩ := hrest id hid
      have hne : id ≠ n.id := by
        rintro rfl
        exact hnew hid
      rw [hline, hreserved]
      exact ⟨hr, hres, List.not_mem_cons_of_ne_of_not_mem hne hni⟩
    obtain ⟨last, hlast⟩ := ih hnamed hfree' hd
    refine ⟨last, ?_⟩
    rw [List.map_cons, List.foldl_cons, hlast, hline]
    simp only [List.map_cons, Entity.ids_cons, List.reverse_cons, List.append_assoc,
      List.singleton_append]
    rfl

/-! ### The lines of edges -/

/-- An edge without what its line does not hold. -/
def bare (e : Edge) : Edge := { e with id := EntityId.missing, stroke := [] }

/-- An edge as its line draws it, with a fresh identifier. -/
def redrawn (id : Nat) (e : Edge) : Edge :=
  { id, source := e.source, target := e.target, label := unifyBreaks e.label, arrow := e.arrow }

theorem readLine_edgeLine {d : Draft} {ids : List Nat} {e : Edge} (h : d.names = names ids)
    (hs : e.source ∈ ids) (ht : e.target ∈ ids) :
    d.readLine (edgeLine e) =
      { d with
        scope := d.scope.fresh.2
        edges := d.edges ++ [redrawn d.scope.fresh.1 e] } := by
  have hsource : d.mention (nodeName e.source) = (e.source, d) :=
    Draft.mention_known (h ▸ lookup?_names_of_mem hs)
  have htarget : d.mention (nodeName e.target) = (e.target, d) :=
    Draft.mention_known (h ▸ lookup?_names_of_mem ht)
  rw [Draft.readLine_edge (readLine?_edgeLine e)]
  unfold Draft.addEdge
  rw [hsource]
  dsimp only
  rw [htarget, unescape_labelText?]
  rfl

theorem readLines_edgeLine {edges : List Edge} {d : Draft} {ids : List Nat}
    (h : d.names = names ids) (he : ∀ e ∈ edges, e.source ∈ ids ∧ e.target ∈ ids) :
    ∃ scope drawn, (edges.map edgeLine).foldl Draft.readLine d =
        { d with scope, edges := d.edges ++ drawn } ∧
      drawn.map bare = edges.map fun e => bare { e with label := unifyBreaks e.label } := by
  induction edges generalizing d with
  | nil =>
    refine ⟨d.scope, [], ?_, rfl⟩
    rw [List.map_nil, List.foldl_nil, List.append_nil]
  | cons e edges ih =>
    obtain ⟨⟨hs, ht⟩, he⟩ := List.forall_mem_cons.mp he
    have hline := readLine_edgeLine h hs ht
    obtain ⟨scope, drawn, hdrawn, hbare⟩ := ih (d := d.readLine (edgeLine e)) (hline ▸ h) he
    refine ⟨scope, redrawn d.scope.fresh.1 e :: drawn, ?_, ?_⟩
    · rw [List.map_cons, List.foldl_cons, hdrawn, hline]
      simp only [List.append_assoc, List.singleton_append]
    · rw [List.map_cons, hbare]
      rfl

/-! ### The lines of styles -/

theorem readLines_styleLine (nodes : List Node) (d : Draft) :
    (nodes.map fun n => trim (styleLine n)).foldl Draft.readLine d =
      { d with
        styles := d.styles ++ nodes.map fun n => (nodeName n.id, trimEnd (styleText n)) } := by
  induction nodes generalizing d with
  | nil => rw [List.map_nil, List.foldl_nil, List.map_nil, List.append_nil]
  | cons n nodes ih =>
    rw [List.map_cons, List.foldl_cons, ih, Draft.readLine_style (readLine?_styleLine n)]
    simp only [List.map_cons, List.append_assoc, List.singleton_append]

/-! ### Places and sizes -/

/-- A node as it is placed when its line is read: where it was before, in the colours of a new one. -/
def placed (n : Node) : Node :=
  { declared n with x := n.x, y := n.y, width := n.width, height := n.height }

theorem settle_declared {f : Flowchart} {n : Node} (h : f.node? n.id = some n) (index : Nat) :
    settle f index (declared n) = placed n := by
  have hd : f.node? (declared n).id = some n := h
  unfold settle
  rw [hd]
  rfl

theorem settleFrom_declared {f : Flowchart} {nodes : List Node}
    (h : ∀ n ∈ nodes, f.node? n.id = some n) (index : Nat) :
    settleFrom f index (nodes.map declared) = nodes.map placed := by
  induction nodes generalizing index with
  | nil => rfl
  | cons n nodes ih =>
    obtain ⟨hn, h⟩ := List.forall_mem_cons.mp h
    rw [List.map_cons, settleFrom, List.map_cons, settle_declared hn, ih h]

/-! ### The whole chart -/

theorem mem_connectedEdges {f : Flowchart} {e : Edge} (h : e ∈ f.connectedEdges) :
    e ∈ f.edges ∧ e.source ∈ Entity.ids f.nodes ∧ e.target ∈ Entity.ids f.nodes := by
  obtain ⟨he, hj⟩ := List.mem_filter.mp h
  exact ⟨he, Flowchart.joins_iff.mp hj⟩

section Chart

variable {f : Flowchart} {scope : Scope} (hd : (Entity.ids f.nodes).Nodup)
  (hn : ∀ id ∈ Entity.ids f.nodes, EntityId.InRange id ∧ id ∉ scope.reserved)
  (hc : scope.claimed = [])

include hd hn hc

/-- All lines together declare the nodes, draw the edges and note the styles. -/
theorem readLines_writtenLines :
    ∃ scope' edges, (writtenLines f).foldl Draft.readLine { scope } =
        { scope := scope'
          names := names ((Entity.ids f.nodes).reverse ++ [])
          nodes := f.nodes.map declared
          edges
          styles := f.nodes.map fun n => (nodeName n.id, trimEnd (styleText n)) } ∧
      edges.map bare =
        f.connectedEdges.map fun e => bare { e with label := unifyBreaks e.label } := by
  have hnamed : ({ scope } : Draft).Named [] := ⟨rfl, hc⟩
  have hfree : ∀ id ∈ Entity.ids f.nodes, EntityId.InRange id ∧ id ∉ scope.reserved ∧
      id ∉ ([] : List Nat) := fun id hid => ⟨(hn id hid).1, (hn id hid).2, List.not_mem_nil⟩
  -- Both ends of a written edge are written nodes, so its line makes no node.
  have hends : ∀ e ∈ f.connectedEdges, e.source ∈ (Entity.ids f.nodes).reverse ++ [] ∧
      e.target ∈ (Entity.ids f.nodes).reverse ++ [] := by
    intro e he
    obtain ⟨-, hs, ht⟩ := mem_connectedEdges he
    simpa using ⟨hs, ht⟩
  obtain ⟨_, hnodes⟩ := readLines_nodeLine hnamed hfree hd
  obtain ⟨scope', drawn, hedges, hbare⟩ := readLines_edgeLine (d := (f.nodes.map nodeLine).foldl
    Draft.readLine { scope }) (by rw [hnodes]) hends
  refine ⟨scope', drawn, ?_, hbare⟩
  unfold writtenLines
  rw [List.foldl_append, List.foldl_append, readLines_styleLine, hedges, hnodes]
  rfl

theorem read_writtenLines :
    (read (writtenLines f) scope f).1.nodes.map uncolored =
        (f.nodes.map fun n => uncolored { n with label := unifyBreaks n.label }) ∧
      (read (writtenLines f) scope f).1.edges.map bare =
        f.connectedEdges.map fun e => bare { e with label := unifyBreaks e.label } := by
  obtain ⟨_, edges, hdraft, hbare⟩ := readLines_writtenLines hd hn hc
  have hfind : ∀ n ∈ f.nodes, f.node? n.id = some n := fun n hm => Entity.find?_id hd hm
  unfold read
  rw [hdraft]
  dsimp only
  refine ⟨?_, hbare⟩
  rw [(styles_spec _ _ _).1, settleFrom_declared hfind, List.map_map]
  rfl

end Chart

/-! ### How many nodes are read

Names are told apart by their digits, so each line of a node makes one, whether or not it gets the
identifier that it asks for. -/

def Draft.met (d : Draft) : List Text := d.names.map Prod.fst

theorem readLine_nodeLine_new {d : Draft} {n : Node} (h : nodeName n.id ∉ d.met) :
    (d.readLine (nodeLine n)).met = nodeName n.id :: d.met ∧
      (d.readLine (nodeLine n)).nodes.length = d.nodes.length + 1 := by
  rw [Draft.readLine_node (readLine?_nodeLine n), Draft.declare_new (lookup?_eq_none.mpr h)]
  exact ⟨rfl, List.length_append⟩

theorem readLine_edgeLine_met {d : Draft} {e : Edge} (hs : nodeName e.source ∈ d.met)
    (ht : nodeName e.target ∈ d.met) :
    (d.readLine (edgeLine e)).met = d.met ∧ (d.readLine (edgeLine e)).nodes = d.nodes := by
  have hknown : ∀ {name : Text}, name ∈ d.met → ∃ id, d.mention name = (id, d) := by
    intro name hm
    obtain ⟨id, hid⟩ := Option.ne_none_iff_exists'.mp fun hn => lookup?_eq_none.mp hn hm
    exact ⟨id, Draft.mention_known hid⟩
  obtain ⟨source, hsource⟩ := hknown hs
  obtain ⟨target, htarget⟩ := hknown ht
  rw [Draft.readLine_edge (readLine?_edgeLine e)]
  unfold Draft.addEdge
  rw [hsource]
  dsimp only
  rw [htarget]
  exact ⟨rfl, rfl⟩

theorem readLines_nodeLine_new {nodes : List Node} {d : Draft} {ids : List Nat}
    (h : d.met = ids.map nodeName) (hd : (Entity.ids nodes ++ ids).Nodup) :
    ((nodes.map nodeLine).foldl Draft.readLine d).met =
        ((Entity.ids nodes).reverse ++ ids).map nodeName ∧
      ((nodes.map nodeLine).foldl Draft.readLine d).nodes.length =
        d.nodes.length + nodes.length := by
  induction nodes generalizing d ids with
  | nil => exact ⟨h, rfl⟩
  | cons n nodes ih =>
    obtain ⟨hnew, -⟩ := List.nodup_cons.mp hd
    have hname : nodeName n.id ∉ d.met := by
      rw [h]
      intro hm
      obtain ⟨id, hid, hname⟩ := List.mem_map.mp hm
      obtain rfl : id = n.id := literalName_injective hname
      exact hnew (List.mem_append_right _ hid)
    obtain ⟨hmet, hlength⟩ := readLine_nodeLine_new hname
    have hnext : (d.readLine (nodeLine n)).met = (n.id :: ids).map nodeName := by
      rw [hmet, h]
      rfl
    obtain ⟨hall, hcount⟩ := ih hnext (List.perm_middle.nodup_iff.mpr hd)
    rw [List.map_cons, List.foldl_cons, Entity.ids_cons, List.reverse_cons, List.append_assoc,
      List.length_cons, hcount, hlength]
    exact ⟨hall, by omega⟩

theorem readLines_edgeLine_met {edges : List Edge} {d : Draft}
    (h : ∀ e ∈ edges, nodeName e.source ∈ d.met ∧ nodeName e.target ∈ d.met) :
    ((edges.map edgeLine).foldl Draft.readLine d).nodes = d.nodes := by
  induction edges generalizing d with
  | nil => rfl
  | cons e edges ih =>
    obtain ⟨⟨hs, ht⟩, he⟩ := List.forall_mem_cons.mp h
    obtain ⟨hmet, hnodes⟩ := readLine_edgeLine_met hs ht
    rw [List.map_cons, List.foldl_cons, ih (by rw [hmet]; exact he), hnodes]

theorem length_read {f : Flowchart} (hd : (Entity.ids f.nodes).Nodup) (scope : Scope)
    (previous : Flowchart) :
    (read (writtenLines f) scope previous).1.nodes.length = f.nodes.length := by
  have hnone : ({ scope } : Draft).met = ([] : List Nat).map nodeName := rfl
  have hfree : (Entity.ids f.nodes ++ []).Nodup := by rwa [List.append_nil]
  obtain ⟨hmet, hcount⟩ := readLines_nodeLine_new hnone hfree
  have hends : ∀ e ∈ f.connectedEdges,
      nodeName e.source ∈ ((f.nodes.map nodeLine).foldl Draft.readLine { scope }).met ∧
        nodeName e.target ∈ ((f.nodes.map nodeLine).foldl Draft.readLine { scope }).met := by
    intro e he
    obtain ⟨-, hs, ht⟩ := mem_connectedEdges he
    rw [hmet]
    exact ⟨List.mem_map_of_mem (by simpa using hs), List.mem_map_of_mem (by simpa using ht)⟩
  have hlength := congrArg List.length (ids_read (writtenLines f) scope previous)
  rw [Entity.length_ids, Entity.length_ids] at hlength
  rw [hlength]
  unfold writtenLines
  rw [List.foldl_append, List.foldl_append, readLines_styleLine, readLines_edgeLine_met hends,
    hcount]
  exact Nat.zero_add _

end Flow
end Dialect

namespace Diagram

open Dialect

theorem Valid.nodes_free {d : Diagram} (hv : d.Valid) (hc : d.counter ≤ 0x20000000000000) :
    (Entity.ids d.flowchart.nodes).Nodup ∧
      ∀ id ∈ Entity.ids d.flowchart.nodes, EntityId.InRange id ∧
        id ∉ (scopeFor d .flowchart).reserved :=
  hv.free hc (List.sublist_append_left _ _)

/-- Reading the text of a valid flowchart back gives the same nodes, up to colours, and the same
edges between nodes that exist, up to their identifiers and colours; in labels line breaks are
unified. -/
theorem readText_writeText_flowchart {d : Diagram} (hv : d.Valid) (hk : d.kind = .flowchart)
    (hc : d.counter ≤ 0x20000000000000)
    (hl : ∀ n ∈ d.flowchart.nodes, '\n' ∉ n.fill ∧ '\n' ∉ n.stroke ∧ '\n' ∉ n.textColor) :
    ∃ e, readText d.writeText d = .ok e ∧ e.kind = .flowchart ∧
      e.flowchart.nodes.map Flow.uncolored = (d.flowchart.nodes.map fun n =>
        Flow.uncolored { n with label := Text.unifyBreaks n.label }) ∧
      e.flowchart.edges.map Flow.bare = (d.flowchart.connectedEdges.map fun e =>
        Flow.bare { e with label := Text.unifyBreaks e.label }) ∧
      AgreesExcept .flowchart e d := by
  have htext : d.writeText = Flow.write d.flowchart := by
    unfold writeText
    rw [hk]
  have hheader : Grammar.ofHeader "flowchart TD".toList = .headed .flowchart := by decide
  have hchart : d.reconcile.flowchart = d.flowchart := by rw [hv.reconcile_eq]; rfl
  obtain ⟨hnodup, hfree⟩ := hv.nodes_free hc
  obtain ⟨hnodes, hedges⟩ := Flow.read_writtenLines hnodup hfree rfl
  obtain ⟨counter, hread⟩ := readText_cons (Flow.contentLines_write hl) d
  have hagree := agreesExcept_readChart d.reconcile (.headed .flowchart) "flowchart TD".toList
    (Flow.writtenLines d.flowchart) (scopeFor d .flowchart)
  have hrest := hagree.trans (hv.agreesExcept_reconcile .flowchart)
  rw [htext, hread]
  unfold chartRead
  rw [hheader]
  refine ⟨_, rfl, rfl, ?_, ?_, ?_⟩
  · unfold readChart
    dsimp only [Grammar.kind]
    rw [hchart]
    exact hnodes
  · unfold readChart
    dsimp only [Grammar.kind]
    rw [hchart]
    exact hedges
  · exact ⟨hrest.flowchart, hrest.sequence, hrest.pie, hrest.gantt, hrest.journey⟩

/-- Labels that look like other lines, an edge that names no node, and an entity of another kind. -/
def knotted : Diagram where
  counter := 10
  flowchart :=
    { nodes :=
        [{ id := 3, label := "\"]--> N5|x|\\n".toList, x := 7, textColor := "  ".toList },
         { id := 5, label := "style N3\r\n%% \x7d".toList, y := 40, shape := .decision }]
      edges :=
        [{ id := 7, source := 5, target := 3, label := "|a \\| ]) -.-> ".toList, arrow := .both },
         { id := 8, source := 3, target := 4 }] }
  sequence := { participants := [⟨6, "N3".toList⟩] }

theorem readText_writeText_knotted :
    ∃ e, readText knotted.writeText knotted = .ok e ∧ e.kind = .flowchart ∧
      e.flowchart.nodes.map Flow.uncolored = (knotted.flowchart.nodes.map fun n =>
        Flow.uncolored { n with label := Text.unifyBreaks n.label }) ∧
      e.flowchart.edges.map Flow.bare = (knotted.flowchart.connectedEdges.map fun e =>
        Flow.bare { e with label := Text.unifyBreaks e.label }) ∧
      AgreesExcept .flowchart e knotted :=
  readText_writeText_flowchart ⟨by decide, by decide, by decide⟩ rfl (by decide) (by decide)

end Diagram
end DiagramDoc
