import DiagramDoc.Proofs.Table.Identified

/-!
# The row numbers of a sequence diagram

The rows of a sequence diagram are numbered anew, from 1 on: the document, the page, the participants,
and the messages that have both their ends. A message names the rows of its ends by these numbers, so
numbers and rows must not come apart where messages are left out.
-/

namespace DiagramDoc

open Table

namespace Table

def sequenceField (name : String) (row : List Text) : Text :=
  field Kind.sequence.columnNames name row

/-! ### Numbers in a row -/

theorem rowId_injective {i j : Nat} (h : rowId i = rowId j) : i = j := by
  have hsame : 3 + i = 3 + j := Dialect.toText_injective h
  omega

theorem mapIdx_rowId {α : Type} (offset : Nat) (xs : List α) :
    xs.mapIdx (fun index _ => rowId (offset + index)) =
      (List.range' (3 + offset) xs.length).map Digits.ofNat := by
  refine List.ext_getElem (by simp) fun index hindex hindex' => ?_
  rw [List.getElem_mapIdx, List.getElem_map, List.getElem_range', rowId]
  congr 1
  omega

/-! ### The fields of a row -/

theorem id_documentRow :
    sequenceField "Id" (heading .sequence ['1'] "Document".toList "Sequence diagram".toList
      [(first "Status", "Draft".toList)]) = Digits.ofNat 1 :=
  field_id (of_decide_eq_true rfl)

theorem id_pageRow : sequenceField "Id" (pageRow .sequence) = Digits.ofNat 2 :=
  field_id (of_decide_eq_true rfl)

theorem filled_ofParticipant (index : Nat) (p : Participant) :
    Filled Kind.sequence.columnNames (p.cells index) (ofParticipant index p) := by
  rw [ofParticipant_eq]
  exact filled_row (of_decide_eq_true rfl)

theorem filled_ofMessage {s : Sequence} {m : Message} (h : m ∈ s.connectedMessages) (index : Nat) :
    Filled Kind.sequence.columnNames (m.cells s index) (ofMessage s index m) := by
  rw [ofMessage_eq h]
  exact filled_row (of_decide_eq_true rfl)

theorem id_ofParticipant (index : Nat) (p : Participant) :
    sequenceField "Id" (ofParticipant index p) = rowId index :=
  (filled_ofParticipant index p).field_eq List.mem_cons_self

theorem id_ofMessage {s : Sequence} {m : Message} (h : m ∈ s.connectedMessages) (index : Nat) :
    sequenceField "Id" (ofMessage s index m) = rowId (s.participants.length + index) :=
  (filled_ofMessage h index).field_eq List.mem_cons_self

theorem name_ofParticipant (index : Nat) (p : Participant) :
    sequenceField "Text Area 1" (ofParticipant index p) = p.name := by
  refine (filled_ofParticipant index p).field_eq ?_
  simp only [Participant.cells, cells, List.mem_cons, true_or, or_true]

theorem fields_ofMessage {s : Sequence} {m : Message} (h : m ∈ s.connectedMessages) (index : Nat) :
    sequenceField "Text Area 1" (ofMessage s index m) = m.label ∧
      sequenceField "Line Source" (ofMessage s index m) =
        Digits.ofNat (s.rowNumber m.sender) ∧
      sequenceField "Line Destination" (ofMessage s index m) =
        Digits.ofNat (s.rowNumber m.receiver) := by
  have hfilled := filled_ofMessage h index
  refine ⟨hfilled.field_eq ?_, hfilled.field_eq ?_, hfilled.field_eq ?_⟩
  · simp only [Message.cells, cells, List.mem_cons, true_or, or_true]
  · simp only [Message.cells, cells, List.mem_cons, true_or, or_true]
  · simp only [Message.cells, cells, List.mem_cons, true_or, or_true]

theorem length_ofSequence (s : Sequence) :
    (ofSequence s).length = 2 + s.participants.length + s.connectedMessages.length := by
  simp only [ofSequence, List.length_cons, List.length_append, List.length_mapIdx]
  omega

/-- Rows count up from 1, whichever messages are left out. -/
theorem ids_ofSequence (s : Sequence) :
    (ofSequence s).map (sequenceField "Id") =
      (List.range' 1 (ofSequence s).length).map Digits.ofNat := by
  have hparticipants : (s.participants.mapIdx ofParticipant).map (sequenceField "Id") =
      (List.range' 3 s.participants.length).map Digits.ofNat := by
    have hids := mapIdx_rowId 0 s.participants
    simp only [map_mapIdx, id_ofParticipant]
    simpa using hids
  have hmessages : (s.connectedMessages.mapIdx (ofMessage s)).map (sequenceField "Id") =
      (List.range' (3 + s.participants.length) s.connectedMessages.length).map Digits.ofNat := by
    rw [map_mapIdx, ← mapIdx_rowId]
    exact List.mapIdx_eq_mapIdx_iff.mpr fun index hi => id_ofMessage (List.getElem_mem hi) index
  have hall : List.range' 1 (2 + s.participants.length + s.connectedMessages.length) =
      1 :: 2 :: (List.range' 3 s.participants.length ++
        List.range' (3 + s.participants.length) s.connectedMessages.length) := by
    rw [List.range'_append_1, Nat.add_assoc, Nat.add_comm 2]
    rfl
  rw [length_ofSequence, hall]
  unfold ofSequence
  rw [List.map_cons, List.map_cons, List.map_append, id_documentRow, id_pageRow, hparticipants,
    hmessages, List.map_cons, List.map_cons, List.map_append]

/-! ### The rows that a message names -/

/-- A cell holds the row number of the participants that have an identifier, of which there are some,
and of no others. -/
structure PointsTo (s : Sequence) (id : Nat) (cell : Text) : Prop where
  present : ∃ p ∈ s.participants, p.id = id
  row_iff : ∀ index p, s.participants[index]? = some p →
    (cell = Digits.ofNat (3 + index) ↔ p.id = id)

theorem pointsTo_rowNumber {s : Sequence} (hd : (Entity.ids s.participants).Nodup) {id : Nat}
    (h : id ∈ Entity.ids s.participants) : PointsTo s id (Digits.ofNat (s.rowNumber id)) := by
  obtain ⟨place, owner, howner, hid, hrow⟩ := Sequence.exists_rowNumber h
  refine ⟨⟨owner, List.mem_of_getElem? howner, hid⟩, fun index p hp => ?_⟩
  rw [hrow]
  constructor
  · intro hcell
    obtain rfl : place = index := rowId_injective hcell
    rw [howner] at hp
    cases hp
    exact hid
  · intro hpid
    -- Two owners of one identifier stand at one place.
    have hat : ∀ (i : Nat) (q : Participant), s.participants[i]? = some q →
        (Entity.ids s.participants)[i]? = some q.id := by
      intro i q hq
      unfold Entity.ids
      rw [List.getElem?_map, hq]
      rfl
    have hsame : (Entity.ids s.participants)[place]? = (Entity.ids s.participants)[index]? := by
      rw [hat _ _ howner, hat _ _ hp, hid, hpid]
    have hlt : place < (Entity.ids s.participants).length :=
      (List.getElem?_eq_some_iff.mp (hat _ _ howner)).1
    rw [(List.getElem?_inj hlt hd).mp hsame]

/-- The rows of a sequence diagram, numbered without gaps: the participants in their order, and behind
them the messages that have both their ends, each naming the rows of just its two ends. -/
structure RowsNumbered (s : Sequence) (rows : List (List Text)) : Prop where
  length : rows.length = 2 + s.participants.length + s.connectedMessages.length
  ids : rows.map (sequenceField "Id") = (List.range' 1 rows.length).map Digits.ofNat
  participant : ∀ index p, s.participants[index]? = some p → ∃ row, rows[2 + index]? = some row ∧
    sequenceField "Id" row = Digits.ofNat (3 + index) ∧ sequenceField "Text Area 1" row = p.name
  message : ∀ index m, s.connectedMessages[index]? = some m →
    ∃ row, rows[2 + s.participants.length + index]? = some row ∧
      sequenceField "Id" row = Digits.ofNat (3 + (s.participants.length + index)) ∧
      sequenceField "Text Area 1" row = m.label ∧
      PointsTo s m.sender (sequenceField "Line Source" row) ∧
      PointsTo s m.receiver (sequenceField "Line Destination" row)

theorem getElem?_ofSequence_participant {s : Sequence} {index : Nat} {p : Participant}
    (h : s.participants[index]? = some p) :
    (ofSequence s)[2 + index]? = some (ofParticipant index p) := by
  have hlt : index < (s.participants.mapIdx ofParticipant).length := by
    rw [List.length_mapIdx]
    exact (List.getElem?_eq_some_iff.mp h).1
  unfold ofSequence
  rw [Nat.add_comm, List.getElem?_cons_succ, List.getElem?_cons_succ,
    List.getElem?_append_left hlt, List.getElem?_mapIdx, h]
  rfl

theorem getElem?_ofSequence_message {s : Sequence} {index : Nat} {m : Message}
    (h : s.connectedMessages[index]? = some m) :
    (ofSequence s)[2 + s.participants.length + index]? = some (ofMessage s index m) := by
  have hlength : (s.participants.mapIdx ofParticipant).length = s.participants.length :=
    List.length_mapIdx
  have hplace : 2 + s.participants.length + index = s.participants.length + index + 2 := by omega
  unfold ofSequence
  rw [hplace, List.getElem?_cons_succ, List.getElem?_cons_succ,
    List.getElem?_append_right (by omega), hlength, Nat.add_sub_cancel_left, List.getElem?_mapIdx, h]
  rfl

theorem rowsNumbered_ofSequence {s : Sequence} (hd : (Entity.ids s.participants).Nodup) :
    RowsNumbered s (ofSequence s) where
  length := length_ofSequence s
  ids := ids_ofSequence s
  participant index p h :=
    ⟨_, getElem?_ofSequence_participant h, id_ofParticipant index p, name_ofParticipant index p⟩
  message index m h := by
    have hm := List.mem_of_getElem? h
    have hends := Sequence.joins_iff.mp (List.mem_filter.mp hm).2
    obtain ⟨hlabel, hsource, hdestination⟩ := fields_ofMessage hm index
    refine ⟨_, getElem?_ofSequence_message h, id_ofMessage hm index, hlabel, ?_, ?_⟩
    · rw [hsource]
      exact pointsTo_rowNumber hd hends.1
    · rw [hdestination]
      exact pointsTo_rowNumber hd hends.2

end Table

namespace Diagram

/-- The text of the table of a sequence diagram is read back as rows that are numbered without gaps, and
in which each message names the rows of its ends, if participants differ in their identifiers. -/
theorem rowsNumbered_writeTable {d : Diagram} (hk : d.kind = .sequence)
    (hd : (Entity.ids d.sequence.participants).Nodup) :
    ∃ rows, read? d.writeTable = some (Kind.sequence.columnNames :: rows) ∧
      RowsNumbered d.sequence rows := by
  have hread := d.read?_writeTable
  unfold toTable dataRows at hread
  rw [hk] at hread
  exact ⟨ofSequence d.sequence, hread, rowsNumbered_ofSequence hd⟩

/-- A message to a participant that is gone stands between two messages that have both their ends. -/
def unanswered : Diagram where
  kind := .sequence
  counter := 20
  sequence :=
    { participants := [⟨9, "a, b".toList⟩, ⟨4, []⟩, ⟨1, "c".toList⟩]
      messages :=
        [{ id := 5, sender := 1, receiver := 9 }, { id := 6, sender := 9, receiver := 7 },
         { id := 8, sender := 4, receiver := 4, label := "\"x\"".toList }] }

theorem rowsNumbered_writeTable_unanswered :
    unanswered.kind = .sequence ∧ (Entity.ids unanswered.sequence.participants).Nodup ∧
      unanswered.sequence.connectedMessages.length = 2 ∧
      ∃ rows, read? unanswered.writeTable = some (Kind.sequence.columnNames :: rows) ∧
        RowsNumbered unanswered.sequence rows := by
  have hdistinct : (Entity.ids unanswered.sequence.participants).Nodup := by decide
  exact ⟨rfl, hdistinct, by decide, rowsNumbered_writeTable rfl hdistinct⟩

end Diagram
end DiagramDoc
