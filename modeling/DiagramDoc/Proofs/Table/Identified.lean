import Mathlib.Data.List.Nodup
import DiagramDoc.Proofs.Diagram.Identifiers
import DiagramDoc.Proofs.Dialect.Name
import DiagramDoc.Proofs.Table.Export

/-!
# Which rows of a flowchart an identifier names

The rows of nodes and edges carry the identifiers of these, and the row of the page carries 1. As the
entities of a diagram differ in their identifiers, rows are mistaken for one another just if one of
them is numbered 1; a line that ends at node 1 then names the page as well.
-/

namespace DiagramDoc

namespace Table

def identified (kind : Kind) (id : Text) (rows : List (List Text)) : List (List Text) :=
  rows.filter fun row => field kind.columnNames "Id" row = id

theorem field_id {kind : Kind} {id name : Text} {more : Cells}
    (h : Addressed kind.columnNames (cells id name more)) :
    field kind.columnNames "Id" (row kind.columnNames (cells id name more)) = id :=
  (filled_row h).field_eq List.mem_cons_self

/-- Of rows that differ in a field, one is found by its field. -/
theorem filter_eq_singleton {α β : Type} [DecidableEq β] {f : α → β} {xs : List α}
    (hd : (xs.map f).Nodup) {x : α} (hx : x ∈ xs) : xs.filter (fun y => f y = f x) = [x] := by
  obtain ⟨before, after, rfl⟩ := List.append_of_mem hx
  rw [List.map_append, List.map_cons, List.nodup_append, List.nodup_cons] at hd
  obtain ⟨-, ⟨hafter, -⟩, hbefore⟩ := hd
  have hb : before.filter (fun y => f y = f x) = [] := by
    refine List.filter_eq_nil_iff.mpr fun y hy => ?_
    rw [decide_eq_true_iff]
    exact hbefore (f y) (List.mem_map_of_mem hy) (f x) List.mem_cons_self
  have ha : after.filter (fun y => f y = f x) = [] := by
    refine List.filter_eq_nil_iff.mpr fun y hy => ?_
    rw [decide_eq_true_iff]
    exact fun he => hafter (he ▸ List.mem_map_of_mem hy)
  rw [List.filter_append, List.filter_cons_of_pos (by exact decide_eq_true rfl), hb, ha,
    List.nil_append]

end Table

open Table

namespace Flowchart

variable (f : Flowchart)

def frontRow : List Text := row Kind.flowchart.columnNames (pageCells ['1'])

def entityRows : List (List Text) := f.nodes.map ofNode ++ f.connectedEdges.map ofEdge

/-- The entities of a flowchart that have a row, by their identifiers. -/
def rowIds : List Nat := Entity.ids f.nodes ++ Entity.ids f.connectedEdges

theorem filled_ofNode (n : Node) : Filled Kind.flowchart.columnNames n.cells (ofNode n) := by
  rw [ofNode_eq]
  exact filled_row (of_decide_eq_true rfl)

theorem field_id_ofNode (n : Node) :
    field Kind.flowchart.columnNames "Id" (ofNode n) = EntityId.toText n.id :=
  field_id (of_decide_eq_true rfl)

theorem field_id_ofEdge (e : Edge) :
    field Kind.flowchart.columnNames "Id" (ofEdge e) = EntityId.toText e.id :=
  field_id (of_decide_eq_true rfl)

theorem field_id_frontRow :
    field Kind.flowchart.columnNames "Id" frontRow = EntityId.toText 1 :=
  field_id (of_decide_eq_true rfl)

theorem map_field_id : f.entityRows.map (field Kind.flowchart.columnNames "Id") =
    f.rowIds.map EntityId.toText := by
  unfold entityRows rowIds Entity.ids
  rw [List.map_append, List.map_append, List.map_map, List.map_map, List.map_map, List.map_map]
  exact congrArg₂ _ (List.map_congr_left fun n _ => field_id_ofNode n)
    (List.map_congr_left fun e _ => field_id_ofEdge e)

end Flowchart

namespace Diagram

open Flowchart

variable {d : Diagram}

theorem dataRows_flowchart (hk : d.kind = .flowchart) :
    d.dataRows = frontRow :: d.flowchart.entityRows := by
  unfold dataRows
  rw [hk]
  rfl

theorem Valid.nodup_rowIds (hv : d.Valid) : d.flowchart.rowIds.Nodup := by
  have hd := (entityIds_perm d .flowchart).nodup_iff.mp hv.distinct
  refine (List.nodup_append.mp hd).1.sublist ?_
  exact (List.filter_sublist.map _).append_left _

theorem Valid.nodup_map_field_id (hv : d.Valid) :
    (d.flowchart.entityRows.map (field Kind.flowchart.columnNames "Id")).Nodup := by
  rw [map_field_id]
  exact hv.nodup_rowIds.map fun _ _ => Dialect.toText_injective

/-- The rows that the identifier of a node names: its own, and that of the page if the node has 1. -/
theorem Valid.identified_node (hv : d.Valid) {n : Node} (hn : n ∈ d.flowchart.nodes) :
    identified .flowchart (EntityId.toText n.id) (frontRow :: d.flowchart.entityRows) =
      if n.id = 1 then [frontRow, ofNode n] else [ofNode n] := by
  have hmem : ofNode n ∈ d.flowchart.entityRows :=
    List.mem_append_left _ (List.mem_map_of_mem hn)
  -- Behind the page no two rows have one identifier, and the page is looked at on its own.
  have hrest := filter_eq_singleton hv.nodup_map_field_id hmem
  rw [field_id_ofNode] at hrest
  have hpage : field Kind.flowchart.columnNames "Id" frontRow = EntityId.toText n.id ↔ n.id = 1 := by
    rw [field_id_frontRow]
    exact ⟨fun h => (Dialect.toText_injective h).symm, fun h => h ▸ rfl⟩
  unfold identified
  rw [List.filter_cons, hrest]
  simp only [decide_eq_true_iff, hpage]

theorem Valid.nodup_frontRow_cons (hv : d.Valid) :
    ((frontRow :: d.flowchart.entityRows).map (field Kind.flowchart.columnNames "Id")).Nodup ↔
      1 ∉ d.flowchart.rowIds := by
  rw [List.map_cons, List.nodup_cons, field_id_frontRow, map_field_id,
    List.mem_map_of_injective fun _ _ => Dialect.toText_injective]
  exact and_iff_left (hv.nodup_rowIds.map fun _ _ => Dialect.toText_injective)

/-- The rows of a flowchart differ in their identifiers just if neither a node nor an edge with both
ends has the identifier 1, which is that of the page. Each end of an edge names the row of that node
alone, but for node 1, which shares its identifier with the page. -/
theorem identified_writeTable (hv : d.Valid) (hk : d.kind = .flowchart) :
    ∃ page rows, read? d.writeTable = some (Kind.flowchart.columnNames :: page :: rows) ∧
      List.Forall₂ (Filled Kind.flowchart.columnNames) d.flowchart.tableCells (page :: rows) ∧
      (((page :: rows).map (field Kind.flowchart.columnNames "Id")).Nodup ↔
        1 ∉ d.flowchart.rowIds) ∧
      ∀ e ∈ d.flowchart.connectedEdges, ∀ id ∈ [e.source, e.target],
        ∃ n ∈ d.flowchart.nodes, n.id = id ∧
          ∃ row, Filled Kind.flowchart.columnNames n.cells row ∧
            identified .flowchart (EntityId.toText id) (page :: rows) =
              if id = 1 then [page, row] else [row] := by
  have hrows := dataRows_flowchart hk
  have hread := d.read?_writeTable
  have hfilled := d.filled_dataRows
  unfold toTable at hread
  unfold tableCells at hfilled
  rw [hrows, hk] at hread hfilled
  refine ⟨frontRow, d.flowchart.entityRows, hread, hfilled, hv.nodup_frontRow_cons, ?_⟩
  intro e he id hid
  rw [connectedEdges_eq, List.mem_filter, decide_eq_true_iff] at he
  have hnode : id ∈ Entity.ids d.flowchart.nodes := by
    rcases List.mem_pair.mp hid with rfl | rfl
    · exact he.2.1
    · exact he.2.2
  obtain ⟨n, hn, rfl⟩ := List.mem_map.mp hnode
  exact ⟨n, hn, rfl, ofNode n, filled_ofNode n, hv.identified_node hn⟩

/-- A flowchart whose identifier 1 is that of an edge to a node that is gone, and which has no row. -/
def pinned : Diagram where
  counter := 8
  flowchart :=
    { nodes := [{ id := 7, label := "A".toList }, { id := 2, label := "B, \"or\" not".toList }]
      edges := [{ id := 3, source := 7, target := 2 }, { id := 1, source := 2, target := 5 }] }

theorem identified_writeTable_pinned :
    pinned.Valid ∧ pinned.kind = .flowchart ∧ 1 ∉ pinned.flowchart.rowIds ∧
      ∃ page rows, read? pinned.writeTable = some (Kind.flowchart.columnNames :: page :: rows) ∧
        ((page :: rows).map (field Kind.flowchart.columnNames "Id")).Nodup := by
  have hv : pinned.Valid := ⟨by decide, by decide, by decide⟩
  have hone : 1 ∉ pinned.flowchart.rowIds := by decide
  obtain ⟨page, rows, hread, -, hnodup, -⟩ := identified_writeTable hv rfl
  exact ⟨hv, rfl, hone, page, rows, hread, hnodup.mpr hone⟩

/-- Two nodes and an edge, numbered as they are in an empty diagram. -/
def paged : Diagram where
  counter := 4
  flowchart :=
    { nodes := [{ id := 1, label := "A".toList }, { id := 2, label := "B".toList }]
      edges := [{ id := 3, source := 1, target := 2 }] }

/-- There the node 1 and the page have one identifier. -/
theorem not_identified_writeTable :
    ¬ ∀ d : Diagram, d.Valid → d.kind = .flowchart →
      ∃ rows, read? d.writeTable = some (Kind.flowchart.columnNames :: rows) ∧
        (rows.map (field Kind.flowchart.columnNames "Id")).Nodup := by
  intro h
  have hv : paged.Valid := ⟨by decide, by decide, by decide⟩
  obtain ⟨rows, hread, hnodup⟩ := h paged hv rfl
  rw [read?_writeTable, toTable, dataRows_flowchart rfl] at hread
  obtain rfl : frontRow :: paged.flowchart.entityRows = rows :=
    List.tail_eq_of_cons_eq (Option.some.inj hread)
  exact absurd List.mem_cons_self (hv.nodup_frontRow_cons.mp hnodup)

end Diagram
end DiagramDoc
