import DiagramDoc.Proofs.Edit.Effect

/-!
# Edits and charts

An edit of a chart leaves the other four charts as they are.
-/

namespace DiagramDoc

/-- The chart that an edit is of, if it is of one. -/
def Edit.chart? : Edit → Option Kind
  | .flowchart _ => some .flowchart
  | .sequence _ => some .sequence
  | .pie _ => some .pie
  | .gantt _ => some .gantt
  | .journey _ => some .journey
  | .setKind _ => none

namespace Diagram

/-- A change of one collection stays within the chart of a kind. -/
def Confined {α : Type} (kind : Kind) (set : Diagram → List α → Diagram) : Prop :=
  ∀ d xs, AgreesExcept kind (set d xs) d

theorem confined_nodes : Confined .flowchart withNodes := fun _ _ =>
  ⟨fun h => absurd rfl h, fun _ => rfl, fun _ => rfl, fun _ => rfl, fun _ => rfl⟩

theorem confined_edges : Confined .flowchart withEdges := fun _ _ =>
  ⟨fun h => absurd rfl h, fun _ => rfl, fun _ => rfl, fun _ => rfl, fun _ => rfl⟩

theorem confined_participants : Confined .sequence withParticipants := fun _ _ =>
  ⟨fun _ => rfl, fun h => absurd rfl h, fun _ => rfl, fun _ => rfl, fun _ => rfl⟩

theorem confined_messages : Confined .sequence withMessages := fun _ _ =>
  ⟨fun _ => rfl, fun h => absurd rfl h, fun _ => rfl, fun _ => rfl, fun _ => rfl⟩

theorem confined_slices : Confined .pie withSlices := fun _ _ =>
  ⟨fun _ => rfl, fun _ => rfl, fun h => absurd rfl h, fun _ => rfl, fun _ => rfl⟩

theorem confined_tasks : Confined .gantt withTasks := fun _ _ =>
  ⟨fun _ => rfl, fun _ => rfl, fun _ => rfl, fun h => absurd rfl h, fun _ => rfl⟩

theorem confined_steps : Confined .journey withSteps := fun _ _ =>
  ⟨fun _ => rfl, fun _ => rfl, fun _ => rfl, fun _ => rfl, fun h => absurd rfl h⟩

end Diagram

namespace Edited

open Diagram

/-! ### One collection -/

section Collection

variable {α : Type} {kind : Kind} {set : Diagram → List α → Diagram} (hc : Confined kind set)
  {e e' : Edited} {sort : EntitySort} {id : Nat} {outcome : Option (List α)}

include hc

theorem agreesExcept_add (xs : Nat → Diagram → List α) :
    AgreesExcept kind (e.add fun i d => set d (xs i d)).diagram e.diagram :=
  (hc e.diagram.allocate.2 _).trans
    ⟨fun _ => rfl, fun _ => rfl, fun _ => rfl, fun _ => rfl, fun _ => rfl⟩

theorem agreesExcept_update (h : e.update sort id (outcome.map (set e.diagram)) = .ok e') :
    AgreesExcept kind e'.diagram e.diagram := by
  obtain ⟨xs, _, rfl⟩ := update_eq_ok h
  exact hc e.diagram xs

theorem agreesExcept_remove
    (h : e.remove sort id (outcome.map fun xs => (set e.diagram xs, [])) = .ok e') :
    AgreesExcept kind e'.diagram e.diagram := by
  obtain ⟨xs, _, rfl⟩ := remove_eq_ok h
  exact hc e.diagram xs

end Collection

theorem agreesExcept_removeNode {e e' : Edited} {id : Nat} (h : e.removeNode id = .ok e') :
    AgreesExcept .flowchart e'.diagram e.diagram := by
  obtain ⟨nodes, _, rfl⟩ := removeNode_eq_ok h
  exact (confined_nodes _ nodes).trans (confined_edges e.diagram _)

theorem agreesExcept_removeNodes {e e' : Edited} {ids : List Nat} (h : e.removeNodes ids = .ok e') :
    AgreesExcept .flowchart e'.diagram e.diagram := by
  induction ids generalizing e with
  | nil =>
    cases h
    exact AgreesExcept.refl _ _
  | cons id ids ih =>
    obtain ⟨f, hf, hr⟩ := ok_of_bind h
    exact (ih hr).trans (agreesExcept_removeNode hf)

theorem agreesExcept_removeParticipant {e e' : Edited} {id : Nat}
    (h : e.removeParticipant id = .ok e') : AgreesExcept .sequence e'.diagram e.diagram := by
  obtain ⟨participants, _, rfl⟩ := removeParticipant_eq_ok h
  exact (confined_participants _ participants).trans (confined_messages e.diagram _)

/-! ### The edits of each chart -/

theorem agreesExcept_applyFlowchart {e e' : Edited} {edit : FlowchartEdit}
    (h : e.applyFlowchart edit = .ok e') : AgreesExcept .flowchart e'.diagram e.diagram := by
  cases edit with
  | addNode label shape x y =>
    cases h
    exact agreesExcept_add confined_nodes _
  | updateNode id patch => exact agreesExcept_update confined_nodes h
  | moveNode id x y => exact agreesExcept_update confined_nodes h
  | removeNodes ids => exact agreesExcept_removeNodes h
  | addEdge source target label arrow =>
    obtain ⟨_, _, h⟩ := ok_of_bind h
    cases h
    exact agreesExcept_add confined_edges _
  | updateEdge id patch =>
    obtain ⟨_, _, _, hu⟩ := applyFlowchart_updateEdge h
    exact agreesExcept_update confined_edges hu
  | removeEdge id => exact agreesExcept_remove confined_edges h

theorem agreesExcept_applySequence {e e' : Edited} {edit : SequenceEdit}
    (h : e.applySequence edit = .ok e') : AgreesExcept .sequence e'.diagram e.diagram := by
  cases edit with
  | addParticipant name =>
    cases h
    exact agreesExcept_add confined_participants _
  | renameParticipant id name => exact agreesExcept_update confined_participants h
  | removeParticipant id => exact agreesExcept_removeParticipant h
  | addMessage sender receiver label line =>
    obtain ⟨_, _, h⟩ := ok_of_bind h
    cases h
    exact agreesExcept_add confined_messages _
  | updateMessage id patch =>
    obtain ⟨_, _, _, hu⟩ := applySequence_updateMessage h
    exact agreesExcept_update confined_messages hu
  | removeMessage id => exact agreesExcept_remove confined_messages h

theorem agreesExcept_applyPie {e e' : Edited} {edit : PieEdit} (h : e.applyPie edit = .ok e') :
    AgreesExcept .pie e'.diagram e.diagram := by
  cases edit with
  | setTitle title =>
    cases h
    exact ⟨fun _ => rfl, fun _ => rfl, fun h => absurd rfl h, fun _ => rfl, fun _ => rfl⟩
  | addSlice label value =>
    cases h
    exact agreesExcept_add confined_slices _
  | updateSlice id patch => exact agreesExcept_update confined_slices h
  | removeSlice id => exact agreesExcept_remove confined_slices h

theorem agreesExcept_applyGantt {e e' : Edited} {edit : GanttEdit}
    (h : e.applyGantt edit = .ok e') : AgreesExcept .gantt e'.diagram e.diagram := by
  cases edit with
  | setTitle title =>
    cases h
    exact ⟨fun _ => rfl, fun _ => rfl, fun _ => rfl, fun h => absurd rfl h, fun _ => rfl⟩
  | setDateFormat format =>
    cases h
    exact ⟨fun _ => rfl, fun _ => rfl, fun _ => rfl, fun h => absurd rfl h, fun _ => rfl⟩
  | addTask group label =>
    cases h
    exact agreesExcept_add confined_tasks _
  | updateTask id patch => exact agreesExcept_update confined_tasks h
  | removeTask id => exact agreesExcept_remove confined_tasks h

theorem agreesExcept_applyJourney {e e' : Edited} {edit : JourneyEdit}
    (h : e.applyJourney edit = .ok e') : AgreesExcept .journey e'.diagram e.diagram := by
  cases edit with
  | setTitle title =>
    cases h
    exact ⟨fun _ => rfl, fun _ => rfl, fun _ => rfl, fun _ => rfl, fun h => absurd rfl h⟩
  | addStep group task =>
    cases h
    exact agreesExcept_add confined_steps _
  | updateStep id patch => exact agreesExcept_update confined_steps h
  | removeStep id => exact agreesExcept_remove confined_steps h

theorem agreesExcept_apply {e e' : Edited} {edit : Edit} {kind : Kind}
    (h : e.apply edit = .ok e') (hk : edit.chart? = some kind) :
    AgreesExcept kind e'.diagram e.diagram := by
  cases edit with
  | flowchart edit =>
    cases hk
    exact agreesExcept_applyFlowchart h
  | sequence edit =>
    cases hk
    exact agreesExcept_applySequence h
  | pie edit =>
    cases hk
    exact agreesExcept_applyPie h
  | gantt edit =>
    cases hk
    exact agreesExcept_applyGantt h
  | journey edit =>
    cases hk
    exact agreesExcept_applyJourney h
  | setKind kind => cases hk

end Edited
end DiagramDoc
