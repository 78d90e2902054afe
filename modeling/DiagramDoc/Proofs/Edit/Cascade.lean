import DiagramDoc.Proofs.Edit.Connections
import DiagramDoc.Proofs.Edit.Exact

/-!
# Points that go with their links

A point of a chart is removed together with the links that it has. Several are removed one after the
other, each on what the ones before it left. When identifiers are distinct, what is left at the end is
told at once: the points that were not asked for, and the links that have neither end among those that
were. So the order does not matter, and neither does how the removals are batched.
-/

namespace DiagramDoc

/-- The points of a chart and the links between them, as they stand in a diagram. -/
structure Web (α β : Type) [Entity α] [Entity β] where
  sort : EntitySort
  points : Diagram → List α
  links : Diagram → List β
  link : β → Link
  set : Diagram → List α → List β → Diagram
  points_set : ∀ d xs ls, points (set d xs ls) = xs
  links_set : ∀ d xs ls, links (set d xs ls) = ls
  set_set : ∀ d xs ls xs' ls', set (set d xs ls) xs' ls' = set d xs' ls'
  set_self : ∀ d, set d (points d) (links d) = d

def nodesWithEdges : Web Node Edge where
  sort := .node
  points d := d.flowchart.nodes
  links d := d.flowchart.edges
  link := Edge.link
  set d nodes edges := { d with flowchart := { nodes, edges } }
  points_set _ _ _ := rfl
  links_set _ _ _ := rfl
  set_set _ _ _ _ _ := rfl
  set_self _ := rfl

def participantsWithMessages : Web Participant Message where
  sort := .participant
  points d := d.sequence.participants
  links d := d.sequence.messages
  link := Message.link
  set d participants messages := { d with sequence := { participants, messages } }
  points_set _ _ _ := rfl
  links_set _ _ _ := rfl
  set_set _ _ _ _ _ := rfl
  set_self _ := rfl

namespace Web

variable {α β : Type} [Entity α] [Entity β] (w : Web α β)

/-- A diagram without some points and without the links that have an end among them. -/
def without (d : Diagram) (ids : List Nat) : Diagram :=
  w.set d ((w.points d).filter fun x => Entity.id x ∉ ids)
    ((w.links d).filter fun l => (w.link l).source ∉ ids ∧ (w.link l).target ∉ ids)

/-- The links that have an end among some points. -/
def severed (d : Diagram) (ids : List Nat) : List β :=
  (w.links d).filter fun l => (w.link l).source ∈ ids ∨ (w.link l).target ∈ ids

/-- What removing points records: they and their links are gone. -/
def removal (d : Diagram) (ids : List Nat) : Changes where
  removed := (ids ∪ Entity.ids (w.severed d ids)).insertionSort (· ≤ ·)

/-- A point is removed if it is there, and its links are. -/
def drop (e : Edited) (id : Nat) : Except EditError Edited :=
  e.remove w.sort id <| (Entity.remove? id (w.points e.diagram)).map fun points =>
    (w.set e.diagram points ((w.links e.diagram).filter fun l =>
        !((w.link l).source == id || (w.link l).target == id)),
      Entity.ids ((w.links e.diagram).filter fun l =>
        (w.link l).source == id || (w.link l).target == id))

/-! ### What is left -/

theorem without_nil (d : Diagram) : w.without d [] = d := by
  have hpoints : (w.points d).filter (fun x => Entity.id x ∉ []) = w.points d :=
    List.filter_eq_self.mpr (by simp)
  have hlinks : (w.links d).filter (fun l => (w.link l).source ∉ [] ∧ (w.link l).target ∉ []) =
      w.links d := List.filter_eq_self.mpr (by simp)
  unfold without
  rw [hpoints, hlinks, w.set_self]

theorem without_append (d : Diagram) (ids more : List Nat) :
    w.without d (ids ++ more) = w.without (w.without d ids) more := by
  unfold without
  rw [w.points_set, w.links_set, w.set_set, List.filter_filter, List.filter_filter]
  congr 1
  · refine List.filter_congr fun x _ => ?_
    simp [Bool.and_comm]
  · refine List.filter_congr fun l _ => ?_
    simp [Bool.and_comm, Bool.and_assoc, Bool.and_left_comm]

theorem mem_ids_points_without {d : Diagram} {ids : List Nat} {id : Nat} :
    id ∈ Entity.ids (w.points (w.without d ids)) ↔ id ∈ Entity.ids (w.points d) ∧ id ∉ ids := by
  unfold without Entity.ids
  rw [w.points_set, List.mem_map, List.mem_map]
  simp only [List.mem_filter, decide_eq_true_eq]
  constructor
  · rintro ⟨x, ⟨hx, hn⟩, rfl⟩
    exact ⟨⟨x, hx, rfl⟩, hn⟩
  · rintro ⟨⟨x, hx, rfl⟩, hn⟩
    exact ⟨x, ⟨hx, hn⟩, rfl⟩

theorem nodup_points_without {d : Diagram} (hd : (Entity.ids (w.points d)).Nodup)
    (ids : List Nat) : (Entity.ids (w.points (w.without d ids))).Nodup := by
  unfold without
  rw [w.points_set]
  exact (List.filter_sublist.map Entity.id).nodup hd

/-- A link that is severed by all of the points is severed by the first ones or by the others. -/
theorem mem_ids_severed_append {d : Diagram} {ids more : List Nat} {id : Nat} :
    id ∈ Entity.ids (w.severed d (ids ++ more)) ↔
      id ∈ Entity.ids (w.severed d ids) ∨ id ∈ Entity.ids (w.severed (w.without d ids) more) := by
  unfold severed without Entity.ids
  rw [w.links_set]
  simp only [List.mem_map, List.mem_filter, decide_eq_true_eq, List.mem_append]
  grind

theorem without_congr (d : Diagram) {ids ids' : List Nat} (h : ∀ id, id ∈ ids ↔ id ∈ ids') :
    w.without d ids = w.without d ids' := by
  unfold without
  simp only [h]

theorem mem_removal {d : Diagram} {ids : List Nat} {id : Nat} :
    id ∈ (w.removal d ids).removed ↔ id ∈ ids ∨ id ∈ Entity.ids (w.severed d ids) := by
  unfold removal
  rw [(List.perm_insertionSort _ _).mem_iff, List.mem_union_iff]

theorem pairwise_removal {d : Diagram} (hd : (Entity.ids (w.links d)).Nodup) (ids : List Nat) :
    (w.removal d ids).removed.Pairwise (· < ·) := by
  have hsevered : (Entity.ids (w.severed d ids)).Nodup :=
    (List.filter_sublist.map Entity.id).nodup hd
  have hnodup := (List.perm_insertionSort (· ≤ ·) _).nodup_iff.mpr (hsevered.union ids)
  have hle := List.pairwise_insertionSort (· ≤ ·) (ids ∪ Entity.ids (w.severed d ids))
  exact hle.imp₂ (fun a b hab hne => Nat.lt_of_le_of_ne hab hne) hnodup

theorem removal_congr {d : Diagram} (hd : (Entity.ids (w.links d)).Nodup) {ids ids' : List Nat}
    (h : ∀ id, id ∈ ids ↔ id ∈ ids') : w.removal d ids = w.removal d ids' := by
  have hsevered : w.severed d ids = w.severed d ids' := by
    unfold severed
    simp only [h]
  have hremoved : (w.removal d ids).removed = (w.removal d ids').removed := by
    refine (w.pairwise_removal hd ids).eq_of_mem_iff (w.pairwise_removal hd ids') fun id => ?_
    rw [mem_removal, mem_removal, h, hsevered]
  exact congrArg (Changes.mk [] · []) hremoved

/-! ### One removal -/

/-- Points were removed with their links, and this was recorded. -/
structure Cuts (ids : List Nat) (e e' : Edited) : Prop where
  diagram : e'.diagram = w.without e.diagram ids
  changes : ∃ gone : List Nat, (∀ id, id ∈ gone ↔ id ∈ ids ∨ id ∈ Entity.ids (w.severed e.diagram ids)) ∧
    e'.changes = gone.foldl Changes.recordRemoved e.changes

theorem Cuts.refl (e : Edited) : w.Cuts [] e e := by
  refine ⟨(w.without_nil _).symm, [], fun id => ?_, rfl⟩
  simp [severed, Entity.ids]

variable {w} {e e' f : Edited} {ids more : List Nat} {id : Nat}

theorem Cuts.trans (hef : w.Cuts ids e f) (hfe' : w.Cuts more f e') :
    w.Cuts (ids ++ more) e e' := by
  obtain ⟨gone, hgone, hchanges⟩ := hef.changes
  obtain ⟨gone', hgone', hchanges'⟩ := hfe'.changes
  refine ⟨?_, gone ++ gone', fun id => ?_, ?_⟩
  · rw [hfe'.diagram, hef.diagram, w.without_append]
  · rw [hef.diagram] at hgone'
    rw [List.mem_append, List.mem_append, hgone, hgone', w.mem_ids_severed_append, or_or_or_comm]
  · rw [hchanges', hchanges, List.foldl_append]

theorem drop_eq_error (hid : id ∉ Entity.ids (w.points e.diagram)) :
    w.drop e id = .error (.notFound w.sort id) := by
  unfold drop
  rw [Entity.remove?_eq_none hid]
  rfl

theorem exists_drop (hd : (Entity.ids (w.points e.diagram)).Nodup)
    (hid : id ∈ Entity.ids (w.points e.diagram)) :
    ∃ e', w.drop e id = .ok e' ∧ w.Cuts [id] e e' := by
  have hlinks : ((w.links e.diagram).filter fun l =>
        !((w.link l).source == id || (w.link l).target == id)) =
      (w.links e.diagram).filter fun l => (w.link l).source ∉ [id] ∧ (w.link l).target ∉ [id] :=
    List.filter_congr fun l _ => Bool.eq_iff_iff.mpr (by simp)
  have hsevered : ((w.links e.diagram).filter fun l =>
      (w.link l).source == id || (w.link l).target == id) = w.severed e.diagram [id] :=
    List.filter_congr fun l _ => Bool.eq_iff_iff.mpr (by simp)
  have hpoints : (w.points e.diagram).filter (fun x => Entity.id x ≠ id) =
      (w.points e.diagram).filter fun x => Entity.id x ∉ [id] :=
    List.filter_congr fun x _ => by simp
  unfold drop
  rw [Entity.remove?_eq_filter hd hid, hlinks, hsevered, hpoints]
  refine ⟨_, rfl, rfl, Entity.ids (w.severed e.diagram [id]) ++ [id], fun i => ?_, ?_⟩
  · rw [List.mem_append, or_comm]
  · rw [List.foldl_append]
    rfl

/-! ### Removals in turn -/

theorem exists_foldlM_drop (hd : (Entity.ids (w.points e.diagram)).Nodup) (hids : ids.Nodup)
    (hin : ∀ id ∈ ids, id ∈ Entity.ids (w.points e.diagram)) :
    ∃ e', ids.foldlM w.drop e = .ok e' ∧ w.Cuts ids e e' := by
  induction ids generalizing e with
  | nil => exact ⟨e, rfl, Cuts.refl w e⟩
  | cons id ids ih =>
    obtain ⟨hnew, hids⟩ := List.nodup_cons.mp hids
    obtain ⟨hid, hin⟩ := List.forall_mem_cons.mp hin
    obtain ⟨f, hf, hcuts⟩ := exists_drop hd hid
    -- The points that are still to be removed are still there.
    have hrest : ∀ i ∈ ids, i ∈ Entity.ids (w.points f.diagram) := by
      intro i hi
      rw [hcuts.diagram, mem_ids_points_without]
      exact ⟨hin i hi, fun he => hnew (List.mem_singleton.mp he ▸ hi)⟩
    obtain ⟨e', hrun, hcuts'⟩ := ih (hcuts.diagram ▸ w.nodup_points_without hd [id]) hids hrest
    refine ⟨e', ?_, hcuts.trans hcuts'⟩
    rw [List.foldlM_cons, hf]
    exact hrun

theorem of_foldlM_drop (hd : (Entity.ids (w.points e.diagram)).Nodup)
    (h : ids.foldlM w.drop e = .ok e') :
    ids.Nodup ∧ ∀ id ∈ ids, id ∈ Entity.ids (w.points e.diagram) := by
  induction ids generalizing e with
  | nil => exact ⟨List.nodup_nil, fun id hid => absurd hid List.not_mem_nil⟩
  | cons id ids ih =>
    rw [List.foldlM_cons] at h
    by_cases hid : id ∈ Entity.ids (w.points e.diagram)
    · obtain ⟨f, hf, hcuts⟩ := exists_drop hd hid
      rw [hf] at h
      obtain ⟨hids, hin⟩ := ih (hcuts.diagram ▸ w.nodup_points_without hd [id]) h
      -- What was removed is not there any more, so it is not asked for again.
      have hleft : ∀ i ∈ ids, i ∈ Entity.ids (w.points e.diagram) ∧ i ∉ [id] := fun i hi =>
        w.mem_ids_points_without.mp (hcuts.diagram ▸ hin i hi)
      exact ⟨List.nodup_cons.mpr ⟨fun hm => (hleft id hm).2 List.mem_cons_self, hids⟩,
        List.forall_mem_cons.mpr ⟨hid, fun i hi => (hleft i hi).1⟩⟩
    · rw [drop_eq_error hid] at h
      cases h

/-- The diagram that removals leave does not depend on what was recorded before. -/
theorem map_diagram_foldlM_drop (e : Edited) (ids : List Nat) :
    (ids.foldlM w.drop e).map Edited.diagram =
      ids.foldlM (fun d id => (w.drop { diagram := d } id).map Edited.diagram) e.diagram := by
  induction ids generalizing e with
  | nil => rfl
  | cons id ids ih =>
    rw [List.foldlM_cons, List.foldlM_cons]
    unfold drop
    dsimp only
    cases Entity.remove? id (w.points e.diagram) with
    | none => rfl
    | some points => exact ih _

theorem Cuts.changes_eq {d : Diagram} (h : w.Cuts ids { diagram := d } e')
    (hd : (Entity.ids (w.links d)).Nodup) : e'.changes = w.removal d ids := by
  obtain ⟨gone, hgone, hchanges⟩ := h.changes
  exact hchanges.trans (Changes.foldl_recordRemoved_eq (w.pairwise_removal hd ids) fun id =>
    w.mem_removal.trans (hgone id).symm)

/-! ### Batches of removals -/

/-- What comes of removing points by a batch, whatever the points are. -/
structure Cascades (w : Web α β) (batch : List Nat → List Edit) (d : Diagram) (ids : List Nat) :
    Prop where
  accepted : (∃ o, d.applyEdits (batch ids) = .ok o) ↔
    ids.Nodup ∧ ∀ id ∈ ids, id ∈ Entity.ids (w.points d)
  outcome : ∀ o, d.applyEdits (batch ids) = .ok o →
    o.diagram = w.without d ids ∧ o.changes = w.removal d ids
  anyOrder : ∀ ids', ids'.Perm ids → ∀ o, d.applyEdits (batch ids) = .ok o →
    d.applyEdits (batch ids') = .ok o
  oneByOne : ids.foldlM (fun d id => (d.applyEdits (batch [id])).map BatchOutcome.diagram) d =
    (d.applyEdits (batch ids)).map BatchOutcome.diagram

/-- A batch removes the points of a list in turn, and one list of a length makes as many edits as
another. -/
structure Removes (w : Web α β) (batch : List Nat → List Edit) : Prop where
  run : ∀ e ids, Edited.applyAll e (batch ids) = ids.foldlM w.drop e
  length : ∀ {ids ids' : List Nat}, ids.length = ids'.length →
    (batch ids).length = (batch ids').length

section Batch

variable {batch : List Nat → List Edit} {d : Diagram} {o : BatchOutcome} (h : w.Removes batch)

include h

theorem Removes.applyEdits_eq (d : Diagram) (ids : List Nat) :
    d.applyEdits (batch ids) = (ids.foldlM w.drop { diagram := d }).map fun e =>
      ⟨e.diagram, e.changes, (batch ids).length⟩ := by
  unfold Diagram.applyEdits
  rw [h.run]

theorem Removes.map_diagram (d : Diagram) (ids : List Nat) :
    (d.applyEdits (batch ids)).map BatchOutcome.diagram =
      (ids.foldlM w.drop { diagram := d }).map Edited.diagram := by
  rw [h.applyEdits_eq]
  cases ids.foldlM w.drop { diagram := d } <;> rfl

theorem Removes.map_diagram_single (d : Diagram) (id : Nat) :
    (d.applyEdits (batch [id])).map BatchOutcome.diagram =
      (w.drop { diagram := d } id).map Edited.diagram := by
  rw [h.map_diagram, List.foldlM_cons]
  cases w.drop { diagram := d } id <;> rfl

variable (hpoints : (Entity.ids (w.points d)).Nodup)

include hpoints

theorem Removes.of_applyEdits (ho : d.applyEdits (batch ids) = .ok o) :
    ids.Nodup ∧ ∀ id ∈ ids, id ∈ Entity.ids (w.points d) := by
  obtain ⟨e, he, -⟩ := Diagram.applyEdits_eq_ok ho
  rw [h.run] at he
  exact of_foldlM_drop hpoints he

variable (hlinks : (Entity.ids (w.links d)).Nodup)

include hlinks

theorem Removes.applyEdits_ok (hids : ids.Nodup) (hin : ∀ id ∈ ids, id ∈ Entity.ids (w.points d)) :
    d.applyEdits (batch ids) = .ok ⟨w.without d ids, w.removal d ids, (batch ids).length⟩ := by
  obtain ⟨e, hrun, hcuts⟩ := exists_foldlM_drop (e := { diagram := d }) hpoints hids hin
  rw [h.applyEdits_eq, hrun, ← hcuts.changes_eq hlinks, ← hcuts.diagram]
  rfl

theorem Removes.cascades (ids : List Nat) : w.Cascades batch d ids where
  accepted := by
    constructor
    · rintro ⟨o, ho⟩
      exact h.of_applyEdits hpoints ho
    · rintro ⟨hids, hin⟩
      exact ⟨_, h.applyEdits_ok hpoints hlinks hids hin⟩
  outcome o ho := by
    obtain ⟨hids, hin⟩ := h.of_applyEdits hpoints ho
    rw [h.applyEdits_ok hpoints hlinks hids hin] at ho
    cases ho
    exact ⟨rfl, rfl⟩
  anyOrder ids' hperm o ho := by
    obtain ⟨hids, hin⟩ := h.of_applyEdits hpoints ho
    have hmem : ∀ id, id ∈ ids' ↔ id ∈ ids := fun id => hperm.mem_iff
    rw [h.applyEdits_ok hpoints hlinks hids hin] at ho
    rw [h.applyEdits_ok hpoints hlinks (hperm.nodup_iff.mpr hids) fun id hid => hin id
      (hperm.subset hid), w.without_congr d hmem, w.removal_congr hlinks hmem,
      h.length hperm.length_eq, ho]
  oneByOne := by
    simp only [h.map_diagram_single]
    rw [h.map_diagram, map_diagram_foldlM_drop]

end Batch

theorem removeNode_eq_drop (e : Edited) (id : Nat) :
    e.removeNode id = nodesWithEdges.drop e id := by
  unfold Edited.removeNode Flowchart.removeNode? drop
  rw [Option.map_map]
  rfl

theorem removeParticipant_eq_drop (e : Edited) (id : Nat) :
    e.removeParticipant id = participantsWithMessages.drop e id := by
  unfold Edited.removeParticipant Sequence.removeParticipant? drop
  rw [Option.map_map]
  rfl

theorem removeNodes_eq_foldlM (e : Edited) (ids : List Nat) :
    e.removeNodes ids = ids.foldlM nodesWithEdges.drop e := by
  induction ids generalizing e with
  | nil => rfl
  | cons id ids ih =>
    rw [List.foldlM_cons, ← removeNode_eq_drop, Edited.removeNodes]
    exact bind_congr fun f => ih f

/-- The nodes are removed by one edit. -/
theorem removes_nodes : nodesWithEdges.Removes fun ids => [.flowchart (.removeNodes ids)] where
  run e ids := by
    rw [← removeNodes_eq_foldlM]
    exact bind_pure (e.removeNodes ids)
  length _ := rfl

/-- The participants are removed by an edit each. -/
theorem removes_participants : participantsWithMessages.Removes fun ids =>
    ids.map fun id => .sequence (.removeParticipant id) where
  run e ids := by
    induction ids generalizing e with
    | nil => rfl
    | cons id ids ih =>
      rw [List.foldlM_cons, ← removeParticipant_eq_drop, List.map_cons, Edited.applyAll]
      exact bind_congr fun f => ih f
  length h := by rw [List.length_map, List.length_map, h]

end Web

namespace Diagram

/-- Removing nodes or participants from a valid diagram takes just them and their links away, in any
order and in any batches. It is refused if and only if one of them is not there or named twice. -/
theorem Valid.removals_cascade {d : Diagram} (hv : d.Valid) (ids : List Nat) :
    nodesWithEdges.Cascades (fun ids => [.flowchart (.removeNodes ids)]) d ids ∧
      participantsWithMessages.Cascades
        (fun ids => ids.map fun id => .sequence (.removeParticipant id)) d ids := by
  constructor
  · exact Web.removes_nodes.cascades (holds_nodes.ids_get d ▸ hv.ids_nodup .node)
      (holds_edges.ids_get d ▸ hv.ids_nodup .edge) ids
  · exact Web.removes_participants.cascades
      (holds_participants.ids_get d ▸ hv.ids_nodup .participant)
      (holds_messages.ids_get d ▸ hv.ids_nodup .message) ids

/-- Two nodes share an edge, one has a loop, and an edge dangles. Messages are sent to and fro. -/
def thicket : Diagram where
  counter := 17
  flowchart :=
    { nodes :=
        [{ id := 1, label := "A".toList }, { id := 2, label := "B".toList },
         { id := 3, label := "C".toList }, { id := 4, label := "D".toList }]
      edges :=
        [{ id := 9, source := 4, target := 1 }, { id := 5, source := 1, target := 2 },
         { id := 7, source := 3, target := 4 }, { id := 6, source := 2, target := 2 },
         { id := 8, source := 3, target := 16 }] }
  sequence :=
    { participants := [⟨12, "User".toList⟩, ⟨10, "System".toList⟩, ⟨11, "Store".toList⟩]
      messages :=
        [{ id := 15, sender := 12, receiver := 10 }, { id := 13, sender := 10, receiver := 11 },
         { id := 14, sender := 11, receiver := 11 }] }

theorem removals_cascade_thicket :
    thicket.Valid ∧
    (∃ o, thicket.applyEdits [.flowchart (.removeNodes [2, 1])] = .ok o ∧
      Entity.ids o.diagram.flowchart.nodes = [3, 4] ∧
      Entity.ids o.diagram.flowchart.edges = [7, 8] ∧
      o.changes = { removed := [1, 2, 5, 6, 9] } ∧
      thicket.applyEdits [.flowchart (.removeNodes [1, 2])] = .ok o) ∧
    (¬ ∃ o, thicket.applyEdits [.flowchart (.removeNodes [2, 1, 2])] = .ok o) ∧
    ∃ o, thicket.applyEdits
        [.sequence (.removeParticipant 12), .sequence (.removeParticipant 10)] = .ok o ∧
      o.diagram.flowchart = thicket.flowchart ∧
      o.diagram.sequence = ⟨[⟨11, "Store".toList⟩], [{ id := 14, sender := 11, receiver := 11 }]⟩ ∧
      o.changes = { removed := [10, 12, 13, 15] } := by
  have hv : thicket.Valid := ⟨by decide, by decide, by decide⟩
  refine ⟨hv, ?_, ?_, ?_⟩
  · have h := (hv.removals_cascade [2, 1]).1
    obtain ⟨o, ho⟩ := h.accepted.mpr ⟨by decide, by decide⟩
    obtain ⟨hd, hc⟩ := h.outcome o ho
    exact ⟨o, ho, by rw [hd]; decide, by rw [hd]; decide, by rw [hc]; decide,
      h.anyOrder [1, 2] (by decide) o ho⟩
  · rw [(hv.removals_cascade [2, 1, 2]).1.accepted]
    decide
  · have h := (hv.removals_cascade [12, 10]).2
    obtain ⟨o, ho⟩ := h.accepted.mpr ⟨by decide, by decide⟩
    obtain ⟨hd, hc⟩ := h.outcome o ho
    exact ⟨o, ho, by rw [hd]; rfl, by rw [hd]; decide, by rw [hc]; decide⟩

end Diagram
end DiagramDoc
