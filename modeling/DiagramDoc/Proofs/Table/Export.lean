import Mathlib.Data.List.DropRight
import Mathlib.Data.List.Forall2
import DiagramDoc.Proofs.Diagram.Entity
import DiagramDoc.Proofs.Number.Place
import DiagramDoc.Proofs.Table.Columns
import DiagramDoc.Proofs.Table.Reading
import DiagramDoc.Table.Export

/-!
# Charts as tables are read back

For each kind of chart it is said here which values its table holds, and in which columns. Whatever the
labels, names, dates and titles are made of, the text of the table is read back as rows that hold these
values, each in its column, and nothing else.
-/

namespace DiagramDoc

open Table

/-! ### What the rows hold -/

namespace Table

abbrev Cells := List (Column × Text)

def cells (id name : Text) (more : Cells) : Cells := (first "Id", id) :: (first "Name", name) :: more

def documentCells (title : Text) (more : Cells) : Cells :=
  cells ['1'] "Document".toList ((first "Text Area 1", title) :: more)

def pageCells (id : Text) : Cells :=
  cells id "Page".toList [(first "Text Area 1", "Page 1".toList)]

end Table

def Node.cells (n : Node) : Cells :=
  Table.cells (EntityId.toText n.id)
    (match n.shape with
      | .process => "Process".toList
      | .decision => "Decision".toList
      | .terminator => "Terminator".toList)
    [(first "Shape Library", "Flowchart Shapes".toList), (first "Page ID", ['1']),
     (first "Text Area 1", n.label)]

def Edge.cells (e : Edge) : Cells :=
  Table.cells (EntityId.toText e.id) "Line".toList
    [(first "Page ID", ['1']), (first "Line Source", EntityId.toText e.source),
     (first "Line Destination", EntityId.toText e.target),
     (first "Source Arrow", if e.arrow = .both then "Arrow".toList else "None".toList),
     (first "Destination Arrow", if e.arrow = .line then "None".toList else "Arrow".toList),
     (first "Text Area 1", e.label)]

/-- The page, the nodes, and the edges that have both their ends. -/
def Flowchart.tableCells (f : Flowchart) : List Cells :=
  pageCells ['1'] :: (f.nodes.map Node.cells ++ (f.edges.filter fun e =>
    e.source ∈ Entity.ids f.nodes ∧ e.target ∈ Entity.ids f.nodes).map Edge.cells)

/-- The number of the last row of a participant with an identifier: two rows stand before those of
participants. -/
def Sequence.rowNumber (s : Sequence) (id : Nat) : Nat :=
  2 + (s.participants.rdropWhile fun p => p.id ≠ id).length

def Participant.cells (index : Nat) (p : Participant) : Cells :=
  Table.cells (Digits.ofNat (3 + index)) "Class".toList
    [(first "Shape Library", "UML".toList), (first "Page ID", ['2']), (first "Text Area 1", p.name)]

def Message.cells (s : Sequence) (index : Nat) (m : Message) : Cells :=
  Table.cells (Digits.ofNat (3 + (s.participants.length + index))) "Line".toList
    [(first "Page ID", ['2']), (first "Line Source", Digits.ofNat (s.rowNumber m.sender)),
     (first "Line Destination", Digits.ofNat (s.rowNumber m.receiver)),
     (first "Source Arrow", "None".toList), (first "Destination Arrow", "Arrow".toList),
     (first "Text Area 1", m.label)]

/-- The document and the page, the participants, and the messages that have both their ends. -/
def Sequence.tableCells (s : Sequence) : List Cells :=
  documentCells "Sequence diagram".toList [(first "Status", "Draft".toList)] :: pageCells ['2'] ::
    (s.participants.mapIdx Participant.cells ++ (s.messages.filter fun m =>
      m.sender ∈ Entity.ids s.participants ∧ m.receiver ∈ Entity.ids s.participants).mapIdx
        (Message.cells s))

/-- What a slice has of a total in hundredths, or what it is if there is no total, a half rounded
up. -/
def Slice.hundredths (total : Number) (s : Slice) : Number :=
  ((if total.isZero ∨ total = .undefined then s.value else s.value / total) * 100 + 1 / 2).floor

def Slice.cells (total : Number) (index : Nat) (s : Slice) : Cells :=
  Table.cells (Digits.ofNat (3 + index)) "Progress Bar".toList
    [(first "Shape Library", "Dynamic Shapes".toList), (first "Page ID", ['2']),
     (first "Text Area 1", s.label), (first "background", "#00000000".toList),
     (first "foreground", if s.color = [] then "#60a5fa".toList else s.color),
     (first "max", "100".toList), (first "min", ['0']), (first "thickness", "100".toList),
     (first "value", (s.hundredths total).toText)]

def Task.statusText (t : Task) : Text :=
  match t.status with
  | none => "New".toList
  | some .done => "Done".toList
  | some .active => "In Progress".toList
  | some .critical => "At Risk".toList

def Task.cells (index : Nat) (t : Task) : Cells :=
  Table.cells (Digits.ofNat (3 + index)) "LucidCardBlock".toList
    [(first "Page ID", ['2']), (first "Text Area 1", t.group), (first "Title", t.label),
     (first "Start Date", t.start), (first "End Date", t.finish), (first "Status", t.statusText),
     (second "Status", t.statusText), (second "Name", t.label)]

def Step.cells (index : Nat) (s : Step) : Cells :=
  Table.cells (Digits.ofNat (3 + index)) "Process".toList
    [(first "Shape Library", "Flowchart Shapes/Containers".toList), (first "Page ID", ['2']),
     (first "Text Area 1", s.task), (first "Text Area 2", "Stage: ".toList ++ s.group),
     (first "Text Area 3", "Score: ".toList ++ s.score.toText),
     (first "Text Area 4", [',', ' '].intercalate s.personas)]

/-- What the rows of a table hold after that of the column names. -/
def Diagram.tableCells (d : Diagram) : List Cells :=
  match d.kind with
  | .flowchart => d.flowchart.tableCells
  | .sequence => d.sequence.tableCells
  | .pie =>
    documentCells (if d.pie.title = [] then "Pie chart".toList else d.pie.title) [] ::
      pageCells ['2'] ::
        d.pie.slices.mapIdx (Slice.cells (Number.sum (d.pie.slices.map Slice.value)))
  | .gantt =>
    documentCells (if d.gantt.title = [] then "Gantt chart".toList else d.gantt.title) [] ::
      pageCells ['2'] :: d.gantt.tasks.mapIdx Task.cells
  | .journey =>
    documentCells (if d.journey.title = [] then "User journey".toList else d.journey.title) [] ::
      pageCells ['2'] :: d.journey.steps.mapIdx Step.cells

/-! ### Participants that messages name -/

theorem Sequence.exists_rowNumber {s : Sequence} {id : Nat} (h : id ∈ Entity.ids s.participants) :
    ∃ index p, s.participants[index]? = some p ∧ p.id = id ∧ s.rowNumber id = 3 + index := by
  have hne : (s.participants.rdropWhile fun p => p.id ≠ id) ≠ [] := by
    obtain ⟨p, hp, rfl⟩ := List.mem_map.mp h
    intro hnil
    exact of_decide_eq_true (List.rdropWhile_eq_nil_iff.mp hnil p hp) rfl
  have hlast := List.rdropWhile_last_not _ _ hne
  obtain ⟨after, hafter⟩ := List.rdropWhile_prefix (fun p : Participant => p.id ≠ id) s.participants
  unfold Sequence.rowNumber
  generalize (s.participants.rdropWhile fun p => p.id ≠ id) = kept at hne hlast hafter
  rcases List.eq_nil_or_concat' kept with rfl | ⟨before, p, rfl⟩
  · exact absurd rfl hne
  · refine ⟨before.length, p, ?_, ?_, ?_⟩
    · rw [← hafter, List.append_assoc, List.getElem?_append_right (Nat.le_refl _), Nat.sub_self]
      rfl
    · rw [List.getLast_concat] at hlast
      simpa using hlast
    · rw [List.length_append, List.length_singleton]
      omega

theorem Table.participantRow_eq {s : Sequence} {id : Nat} (h : id ∈ Entity.ids s.participants) :
    participantRow s id = Digits.ofNat (s.rowNumber id) := by
  obtain ⟨participants, messages⟩ := s
  unfold participantRow Sequence.rowNumber
  dsimp only at h ⊢
  -- The last participant decides, or it is passed by on both sides.
  induction participants using List.reverseRecOn with
  | nil => cases h
  | append_singleton participants p ih =>
    rw [List.zipIdx_append, List.reverse_append]
    by_cases hp : p.id = id
    · have hlength : 2 + (participants ++ [p]).length = 3 + participants.length := by
        rw [List.length_append, List.length_singleton]
        omega
      rw [List.rdropWhile_concat_neg _ _ _ (by simpa using hp), hlength]
      simp [hp, rowId]
    · have hrest : id ∈ Entity.ids participants := by
        rw [Entity.ids_append] at h
        rcases List.mem_append.mp h with h | h
        · exact h
        · exact absurd (List.mem_singleton.mp h).symm hp
      rw [List.rdropWhile_concat_pos _ _ _ (by simpa using hp)]
      simpa [hp] using ih hrest

theorem Table.map_mapIdx {α β γ : Type} (f : Nat → α → β) (g : β → γ) (xs : List α) :
    (xs.mapIdx f).map g = xs.mapIdx fun index x => g (f index x) := by
  rw [List.mapIdx_eq_zipIdx_map, List.mapIdx_eq_zipIdx_map, List.map_map]
  rfl

/-! ### The rows that are written -/

theorem Flowchart.connectedEdges_eq (f : Flowchart) :
    f.connectedEdges = f.edges.filter fun e =>
      e.source ∈ Entity.ids f.nodes ∧ e.target ∈ Entity.ids f.nodes := by
  refine List.filter_congr fun e _ => Bool.eq_iff_iff.mpr ?_
  rw [decide_eq_true_iff, joins_iff]

theorem Sequence.connectedMessages_eq (s : Sequence) :
    s.connectedMessages = s.messages.filter fun m =>
      m.sender ∈ Entity.ids s.participants ∧ m.receiver ∈ Entity.ids s.participants := by
  refine List.filter_congr fun m _ => Bool.eq_iff_iff.mpr ?_
  rw [decide_eq_true_iff, joins_iff]

namespace Table

theorem titleOr_eq (default title : Text) :
    titleOr default title = if title = [] then default else title := by
  by_cases h : title = []
  · rw [if_pos h, h, titleOr_nil]
  · rw [if_neg h, titleOr_of_ne_nil h]

theorem percentage_eq (s : Slice) (total : Number) :
    percentage s.value total = s.hundredths total := by
  unfold percentage Slice.hundredths
  dsimp only
  split
  · rw [Number.div_one]
  · rfl

theorem ofNode_eq (n : Node) : ofNode n = row Kind.flowchart.columnNames n.cells := by
  unfold ofNode Node.cells
  cases n.shape <;> rfl

theorem ofEdge_eq (e : Edge) : ofEdge e = row Kind.flowchart.columnNames e.cells := by
  unfold ofEdge Edge.cells
  cases e.arrow <;> rfl

theorem ofParticipant_eq (index : Nat) (p : Participant) :
    ofParticipant index p = row Kind.sequence.columnNames (p.cells index) := rfl

theorem ofMessage_eq {s : Sequence} {m : Message} (h : m ∈ s.connectedMessages) (index : Nat) :
    ofMessage s index m = row Kind.sequence.columnNames (m.cells s index) := by
  obtain ⟨hsender, hreceiver⟩ := Sequence.joins_iff.mp (List.mem_filter.mp h).2
  unfold ofMessage
  rw [participantRow_eq hsender, participantRow_eq hreceiver]
  rfl

theorem ofSlice_eq (total : Number) (index : Nat) (s : Slice) :
    ofSlice total index s = row Kind.pie.columnNames (s.cells total index) := by
  unfold ofSlice
  rw [titleOr_eq, percentage_eq]
  rfl

theorem ofTask_eq (index : Nat) (t : Task) :
    ofTask index t = row Kind.gantt.columnNames (t.cells index) := by
  have hstatus : TaskStatus.label t.status = t.statusText := by
    unfold TaskStatus.label Task.statusText
    rcases t.status with _ | _ | _ | _ <;> rfl
  unfold ofTask
  rw [hstatus]
  rfl

theorem ofStep_eq (index : Nat) (s : Step) :
    ofStep index s = row Kind.journey.columnNames (s.cells index) := rfl

/-- The rows of a chart with a title of its own, or one of its kind. -/
theorem titledRows_eq {α : Type} {written : Nat → α → List Text} {cells : Nat → α → Cells}
    {kind : Kind} (h : ∀ index x, written index x = row kind.columnNames (cells index x))
    (default title : Text) (xs : List α) :
    documentRow kind (titleOr default title) :: pageRow kind :: xs.mapIdx written =
      (documentCells (if title = [] then default else title) [] :: pageCells ['2'] ::
        xs.mapIdx cells).map (row kind.columnNames) := by
  rw [List.map_cons, List.map_cons, map_mapIdx, funext₂ h, titleOr_eq]
  rfl

end Table

namespace Diagram

theorem dataRows_eq (d : Diagram) : d.dataRows = d.tableCells.map (row d.kind.columnNames) := by
  unfold dataRows tableCells
  cases d.kind with
  | flowchart =>
    show ofFlowchart _ = _
    rw [ofFlowchart, Flowchart.tableCells, Flowchart.connectedEdges_eq, List.map_cons,
      List.map_append, List.map_map, List.map_map, funext ofNode_eq, funext ofEdge_eq]
    rfl
  | sequence =>
    have hmessages : d.sequence.connectedMessages.mapIdx (ofMessage d.sequence) =
        d.sequence.connectedMessages.mapIdx fun index m =>
          row Kind.sequence.columnNames (m.cells d.sequence index) :=
      List.mapIdx_eq_mapIdx_iff.mpr fun index hi => ofMessage_eq (List.getElem_mem hi) index
    show ofSequence _ = _
    rw [ofSequence, hmessages, Sequence.tableCells, Sequence.connectedMessages_eq, List.map_cons,
      List.map_cons, List.map_append, map_mapIdx, map_mapIdx, funext₂ ofParticipant_eq]
    rfl
  | pie => exact titledRows_eq (ofSlice_eq d.pie.total) _ d.pie.title d.pie.slices
  | gantt => exact titledRows_eq ofTask_eq _ d.gantt.title d.gantt.tasks
  | journey => exact titledRows_eq ofStep_eq _ d.journey.title d.journey.steps

/-- No row gives a column two values, or names a column that its kind does not have. -/
theorem addressed_tableCells (d : Diagram) :
    ∀ cells ∈ d.tableCells, Addressed d.kind.columnNames cells := by
  unfold tableCells
  cases d.kind with
  | flowchart =>
    refine List.forall_mem_cons.mpr ⟨of_decide_eq_true rfl, fun cells hc => ?_⟩
    rcases List.mem_append.mp hc with hc | hc
    · obtain ⟨n, -, rfl⟩ := List.mem_map.mp hc
      exact of_decide_eq_true rfl
    · obtain ⟨e, -, rfl⟩ := List.mem_map.mp hc
      exact of_decide_eq_true rfl
  | sequence =>
    refine List.forall_mem_cons.mpr ⟨of_decide_eq_true rfl, ?_⟩
    refine List.forall_mem_cons.mpr ⟨of_decide_eq_true rfl, fun cells hc => ?_⟩
    rcases List.mem_append.mp hc with hc | hc
    · obtain ⟨index, hi, rfl⟩ := List.mem_mapIdx.mp hc
      exact of_decide_eq_true rfl
    · obtain ⟨index, hi, rfl⟩ := List.mem_mapIdx.mp hc
      exact of_decide_eq_true rfl
  | pie | gantt | journey =>
    refine List.forall_mem_cons.mpr ⟨of_decide_eq_true rfl, ?_⟩
    refine List.forall_mem_cons.mpr ⟨of_decide_eq_true rfl, fun cells hc => ?_⟩
    obtain ⟨index, hi, rfl⟩ := List.mem_mapIdx.mp hc
    exact of_decide_eq_true rfl

theorem filled_dataRows (d : Diagram) :
    List.Forall₂ (Filled d.kind.columnNames) d.tableCells d.dataRows := by
  rw [dataRows_eq, List.forall₂_map_right_iff, List.forall₂_same]
  exact fun cells hc => filled_row (d.addressed_tableCells cells hc)

theorem read?_writeTable (d : Diagram) : read? d.writeTable = some d.toTable := by
  refine read?_write (List.cons_ne_nil _ _) (List.forall_mem_cons.mpr ⟨?_, fun row hr => ?_⟩)
  · cases d.kind <;> exact List.cons_ne_nil _ _
  · rw [dataRows_eq] at hr
    obtain ⟨cells, hc, rfl⟩ := List.mem_map.mp hr
    rw [← List.length_pos_iff, (filled_row (d.addressed_tableCells cells hc)).width]
    cases d.kind <;> exact Nat.succ_pos _

/-- The text of a table is read back as the column names and one row for each row of values, which holds
these values in their columns and nothing else. -/
theorem read?_writeTable_filled (d : Diagram) :
    ∃ rows, read? d.writeTable = some (d.kind.columnNames :: rows) ∧
      List.Forall₂ (Filled d.kind.columnNames) d.tableCells rows :=
  ⟨d.dataRows, d.read?_writeTable, d.filled_dataRows⟩

end Diagram
end DiagramDoc
