import DiagramDoc.Proofs.Diagram.Reconcile
import DiagramDoc.Proofs.Edit.Connections

/-!
# Dangling references and fresh identifiers

A link may refer to a point that does not exist. The counter goes by the identifiers in use and not by
such references, so a point that gets a fresh identifier may come to be what a link refers to. Here is
when it does: the fresh identifiers of points are a range from the first free one on, and references
outside this range go on to dangle.
-/

namespace DiagramDoc

/-- Some link refers to a point that does not exist. -/
def Net.Dangles (n : Net) (r : Nat) : Prop :=
  r ≠ EntityId.missing ∧ (∃ l ∈ n.links, r = l.source ∨ r = l.target) ∧ r ∉ n.points

instance (n : Net) (r : Nat) : Decidable (n.Dangles r) :=
  inferInstanceAs (Decidable (_ ∧ (∃ l ∈ n.links, _) ∧ _))

/-- References are as they were when the ends of the links are. -/
theorem Net.dangles_congr {n n' : Net} {r : Nat}
    (hl : n'.links.map (fun l => (l.source, l.target)) = n.links.map fun l => (l.source, l.target))
    (hd : n.Dangles r) : n'.Dangles r ↔ r ∉ n'.points := by
  refine ⟨fun h => h.2.2, fun h => ⟨hd.1, ?_, h⟩⟩
  obtain ⟨l, hm, hr⟩ := hd.2.1
  have hends : (l.source, l.target) ∈ n'.links.map fun l => (l.source, l.target) := by
    rw [hl]
    exact List.mem_map_of_mem hm
  obtain ⟨l', hm', heq⟩ := List.mem_map.mp hends
  rw [Prod.mk.injEq] at heq
  exact ⟨l', hm', by rwa [heq.1, heq.2]⟩

namespace Diagram

/-! ### Reconciling -/

theorem ends_flowchart_reconcile (d : Diagram) :
    d.reconcile.flowchart.net.links.map (fun l => (l.source, l.target)) =
      d.flowchart.net.links.map fun l => (l.source, l.target) := by
  have hsame : Entity.anonymous d.reconcile.flowchart.edges = Entity.anonymous d.flowchart.edges :=
    congrArg (fun d : Diagram => d.flowchart.edges) (anonymous_reconcile d)
  unfold Flowchart.net
  rw [List.map_map, List.map_map, ← Entity.map_anonymous (fun _ _ => rfl), hsame,
    Entity.map_anonymous fun _ _ => rfl]

theorem ends_sequence_reconcile (d : Diagram) :
    d.reconcile.sequence.net.links.map (fun l => (l.source, l.target)) =
      d.sequence.net.links.map fun l => (l.source, l.target) := by
  have hsame : Entity.anonymous d.reconcile.sequence.messages =
      Entity.anonymous d.sequence.messages :=
    congrArg (fun d : Diagram => d.sequence.messages) (anonymous_reconcile d)
  unfold Sequence.net
  rw [List.map_map, List.map_map, ← Entity.map_anonymous (fun _ _ => rfl), hsame,
    Entity.map_anonymous fun _ _ => rfl]

end Diagram

/-! ### New points -/

namespace Edit

def addsNode : Edit → Bool
  | .flowchart (.addNode ..) => true
  | _ => false

def addsParticipant : Edit → Bool
  | .sequence (.addParticipant _) => true
  | _ => false

end Edit

namespace Edited

/-- The first free identifier was drawn for a new point of a chart. -/
structure AddsPoint (netOf : Diagram → Net) (e e' : Edited) : Prop extends Draws e e' where
  net : netOf e'.diagram =
    ⟨(netOf e.diagram).points ++ [e.diagram.nextId], (netOf e.diagram).links⟩

theorem Draws.nextId_eq {e e' : Edited} (h : Draws e e')
    (hl : e'.diagram.counter < EntityId.largest) : e'.diagram.nextId = e.diagram.nextId + 1 := by
  have hc := h.counter
  have hs := EntityId.successor_eq_of_lt (hc ▸ hl)
  refine (Diagram.max_successor_maxId (by omega) fun id hid => ?_).trans (hc.trans hs)
  rcases List.mem_cons.mp (h.ids.mem_iff.mp hid) with rfl | hm
  · omega
  · have hlt := Diagram.lt_nextId hm (by omega)
    omega

theorem apply_addsNode {edit : Edit} (h : edit.addsNode = true) (e : Edited) :
    ∃ e', e.apply edit = .ok e' ∧ AddsPoint (fun d => d.flowchart.net) e e' := by
  unfold Edit.addsNode at h
  split at h
  · next label shape x y =>
    have hdo : e.apply (.flowchart (.addNode label shape x y)) = .ok _ := rfl
    refine ⟨_, hdo, apply_effect hdo, ?_⟩
    exact congrArg (Net.mk · _) (Entity.ids_append _ _)
  · cases h

theorem apply_addsParticipant {edit : Edit} (h : edit.addsParticipant = true) (e : Edited) :
    ∃ e', e.apply edit = .ok e' ∧ AddsPoint (fun d => d.sequence.net) e e' := by
  unfold Edit.addsParticipant at h
  split at h
  · next name =>
    have hdo : e.apply (.sequence (.addParticipant name)) = .ok _ := rfl
    refine ⟨_, hdo, apply_effect hdo, ?_⟩
    exact congrArg (Net.mk · _) (Entity.ids_append _ _)
  · cases h

/-- A batch of new points draws as many identifiers as it is long, from the first free one on. -/
theorem applyAll_addsPoints {adds : Edit → Bool} {netOf : Diagram → Net}
    (hstep : ∀ {edit}, adds edit = true → ∀ e : Edited,
      ∃ e', e.apply edit = .ok e' ∧ AddsPoint netOf e e')
    {edits : List Edit} (h : ∀ edit ∈ edits, adds edit = true) (e : Edited) :
    ∃ e', e.applyAll edits = .ok e' ∧ (netOf e'.diagram).links = (netOf e.diagram).links ∧
      (e'.diagram.counter < EntityId.largest → ∀ r, r ∈ (netOf e'.diagram).points ↔
        r ∈ (netOf e.diagram).points ∨
          e.diagram.nextId ≤ r ∧ r < e.diagram.nextId + edits.length) := by
  induction edits generalizing e with
  | nil =>
    refine ⟨e, rfl, rfl, fun _ r => ⟨.inl, fun hr => hr.resolve_right fun ⟨hge, hlt⟩ => ?_⟩⟩
    exact Nat.not_lt_of_le hge hlt
  | cons edit edits ih =>
    obtain ⟨hadds, hrest⟩ := List.forall_mem_cons.mp h
    obtain ⟨f, hf, hpoint⟩ := hstep hadds e
    obtain ⟨e', he', hlinks, hpoints⟩ := ih hrest f
    have hrun : e.applyAll (edit :: edits) = .ok e' := by
      rw [applyAll, hf]
      exact he'
    refine ⟨e', hrun, ?_, fun hl r => ?_⟩
    · rw [hlinks, hpoint.net]
    · have hle := applyAll_grows he' hl
      have hnext := hpoint.nextId_eq (Nat.lt_of_le_of_lt hle hl)
      rw [hpoints hl r, hpoint.net, List.mem_append, List.mem_singleton, hnext, or_assoc,
        List.length_cons]
      refine or_congr_right ?_
      omega

end Edited

namespace Diagram

theorem dangles_of_addsPoints (netOf : Diagram → Net) {adds : Edit → Bool}
    (hstep : ∀ {edit}, adds edit = true → ∀ e : Edited,
      ∃ e', e.apply edit = .ok e' ∧ Edited.AddsPoint netOf e e')
    {edits : List Edit} (h : ∀ edit ∈ edits, adds edit = true) (d : Diagram) :
    ∃ o, d.applyEdits edits = .ok o ∧ (o.diagram.counter < EntityId.largest →
      ∀ r, (netOf d).Dangles r →
        ((netOf o.diagram).Dangles r ↔ r < d.nextId ∨ d.nextId + edits.length ≤ r)) := by
  obtain ⟨e, he, hlinks, hpoints⟩ := Edited.applyAll_addsPoints hstep h { diagram := d }
  refine ⟨⟨e.diagram, e.changes, edits.length⟩, ?_, fun hl r hd => ?_⟩
  · rw [applyEdits, he]
    rfl
  · rw [Net.dangles_congr (congrArg _ hlinks) hd, hpoints hl r, or_iff_right hd.2.2]
    show ¬ (d.nextId ≤ r ∧ r < d.nextId + edits.length) ↔ _
    omega

/-- A dangling reference is captured just if it is in the range of the fresh identifiers of points:
those of reconciling for points that lost theirs, or those of a batch for its new points. -/
theorem dangles_iff (d : Diagram) :
    (d.reconcile.counter < EntityId.largest → ∀ r,
      (d.flowchart.net.Dangles r → (d.reconcile.flowchart.net.Dangles r ↔
        r < d.nextId ∨ d.nextId + Claims.lost [] (Entity.ids d.flowchart.nodes) ≤ r)) ∧
      (d.sequence.net.Dangles r → (d.reconcile.sequence.net.Dangles r ↔
        r < d.nextId + Claims.lost [] (d.idsOf .flowchart) ∨
          d.nextId + Claims.lost [] (d.idsOf .flowchart ++
            Entity.ids d.sequence.participants) ≤ r))) ∧
    (∀ edits : List Edit, (∀ edit ∈ edits, edit.addsNode = true) →
      ∃ o, d.applyEdits edits = .ok o ∧ (o.diagram.counter < EntityId.largest →
        ∀ r, d.flowchart.net.Dangles r → (o.diagram.flowchart.net.Dangles r ↔
          r < d.nextId ∨ d.nextId + edits.length ≤ r))) ∧
    (∀ edits : List Edit, (∀ edit ∈ edits, edit.addsParticipant = true) →
      ∃ o, d.applyEdits edits = .ok o ∧ (o.diagram.counter < EntityId.largest →
        ∀ r, d.sequence.net.Dangles r → (o.diagram.sequence.net.Dangles r ↔
          r < d.nextId ∨ d.nextId + edits.length ≤ r))) := by
  refine ⟨fun hl r => ⟨fun hd => ?_, fun hd => ?_⟩, fun edits he => ?_, fun edits he => ?_⟩
  · have hm : r ∈ d.reconcile.flowchart.net.points ↔ _ := mem_nodes_reconcile hl hd.2.2
    rw [Net.dangles_congr d.ends_flowchart_reconcile hd, hm]
    omega
  · have hm : r ∈ d.reconcile.sequence.net.points ↔ _ := mem_participants_reconcile hl hd.2.2
    rw [Net.dangles_congr d.ends_sequence_reconcile hd, hm]
    omega
  · exact dangles_of_addsPoints (fun d => d.flowchart.net) Edited.apply_addsNode he d
  · exact dangles_of_addsPoints (fun d => d.sequence.net) Edited.apply_addsParticipant he d

/-- A node, an edge and a participant have no identifier of their own, and are given 8, 9 and 10. -/
def frayed : Diagram where
  counter := 5
  flowchart :=
    { nodes := [{ id := 1, label := "A".toList }, { id := 1, label := "B".toList }]
      edges := [{ id := 7, source := 8, target := 3 }, { id := 0, source := 9, target := 20 }] }
  sequence :=
    { participants := [⟨6, "User".toList⟩, ⟨0, "System".toList⟩]
      messages := [{ id := 4, sender := 8, receiver := 9 }, { id := 2, sender := 10, receiver := 11 }] }

def newNodes : List Edit := List.replicate 2 (.flowchart (.addNode none .process 0 0))

def newParticipants : List Edit := List.replicate 3 (.sequence (.addParticipant none))

theorem dangles_iff_frayed :
    (∀ r ∈ [3, 9, 20], frayed.reconcile.flowchart.net.Dangles r) ∧
    ¬ frayed.reconcile.flowchart.net.Dangles 8 ∧
    (∀ r ∈ [8, 9, 11], frayed.reconcile.sequence.net.Dangles r) ∧
    ¬ frayed.reconcile.sequence.net.Dangles 10 ∧
    (∃ o, frayed.applyEdits newNodes = .ok o ∧
      o.diagram.flowchart.net.Dangles 3 ∧ ¬ o.diagram.flowchart.net.Dangles 9) ∧
    ∃ o, frayed.applyEdits newParticipants = .ok o ∧
      o.diagram.sequence.net.Dangles 11 ∧ ¬ o.diagram.sequence.net.Dangles 10 := by
  obtain ⟨hreconcile, hnodes, hparticipants⟩ := dangles_iff frayed
  have hcounter : frayed.reconcile.counter < EntityId.largest := by decide
  have hflow : ∀ r ∈ [3, 8, 9, 20], frayed.flowchart.net.Dangles r := by decide
  have hseq : ∀ r ∈ [8, 9, 10, 11], frayed.sequence.net.Dangles r := by decide
  have hflowIff := fun r hr => (hreconcile hcounter r).1 (hflow r hr)
  have hseqIff := fun r hr => (hreconcile hcounter r).2 (hseq r hr)
  refine ⟨?_, ?_, ?_, ?_, ?_, ?_⟩
  · intro r hr
    refine (hflowIff r ?_).mpr ?_ <;> revert r <;> decide
  · exact mt (hflowIff 8 (by decide)).mp (by decide)
  · intro r hr
    refine (hseqIff r ?_).mpr ?_ <;> revert r <;> decide
  · exact mt (hseqIff 10 (by decide)).mp (by decide)
  · obtain ⟨o, ho, hdangles⟩ := hnodes newNodes (by decide)
    have hl : o.diagram.counter < EntityId.largest := by
      cases ho
      decide
    exact ⟨o, ho, (hdangles hl 3 (hflow 3 (by decide))).mpr (by decide),
      mt (hdangles hl 9 (hflow 9 (by decide))).mp (by decide)⟩
  · obtain ⟨o, ho, hdangles⟩ := hparticipants newParticipants (by decide)
    have hl : o.diagram.counter < EntityId.largest := by
      cases ho
      decide
    exact ⟨o, ho, (hdangles hl 11 (hseq 11 (by decide))).mpr (by decide),
      mt (hdangles hl 10 (hseq 10 (by decide))).mp (by decide)⟩

/-- Both links refer to identifiers that are still to be drawn. -/
def snare : Diagram where
  counter := 3
  flowchart := { edges := [{ id := 1, source := 3, target := 3 }] }
  sequence := { messages := [{ id := 2, sender := 4, receiver := 4 }] }

/-- The same links, beside a node and a participant without identifiers. -/
def baited : Diagram :=
  { snare with
    flowchart := { snare.flowchart with nodes := [{ id := 0, label := "A".toList }] }
    sequence := { snare.sequence with participants := [⟨0, "User".toList⟩] } }

/-- Fresh identifiers capture dangling references, by reconciling and by adding points. -/
theorem captures_dangling :
    (baited.flowchart.net.Dangles 3 ∧ baited.sequence.net.Dangles 4 ∧
      baited.reconcile.counter < EntityId.largest ∧
      3 ∈ baited.reconcile.flowchart.net.points ∧ 4 ∈ baited.reconcile.sequence.net.points) ∧
    snare.Valid ∧ snare.flowchart.net.Dangles 3 ∧ snare.sequence.net.Dangles 4 ∧
    (∃ o, snare.applyEdits newNodes = .ok o ∧ o.diagram.counter < EntityId.largest ∧
      3 ∈ o.diagram.flowchart.net.points) ∧
    ∃ o, snare.applyEdits newParticipants = .ok o ∧ o.diagram.counter < EntityId.largest ∧
      4 ∈ o.diagram.sequence.net.points := by
  refine ⟨by decide, ⟨by decide, by decide, by decide⟩, by decide, by decide, ?_, ?_⟩
  · exact ⟨_, rfl, by decide, by decide⟩
  · exact ⟨_, rfl, by decide, by decide⟩

end Diagram
end DiagramDoc
