import DiagramDoc.Proofs.Edit.Items

/-!
# What one edit does

An edit adds one entity, changes the one it names, or drops some. Everything that is proved of
batches rests on this, and on what the record of changes says of each case.
-/

namespace DiagramDoc

open Diagram

namespace Edit

def adds : Edit → Bool
  | .flowchart (.addNode ..) | .flowchart (.addEdge ..) => true
  | .sequence (.addParticipant _) | .sequence (.addMessage ..) => true
  | .pie (.addSlice ..) | .gantt (.addTask ..) | .journey (.addStep ..) => true
  | _ => false

/-- The entity that an edit updates, moves or renames. -/
def target? : Edit → Option Nat
  | .flowchart (.updateNode id _) | .flowchart (.moveNode id _ _) => some id
  | .flowchart (.updateEdge id _) => some id
  | .sequence (.renameParticipant id _) | .sequence (.updateMessage id _) => some id
  | .pie (.updateSlice id _) | .gantt (.updateTask id _) | .journey (.updateStep id _) => some id
  | _ => none

end Edit

namespace Edited

/-- A new entity came last in a collection, under the first free identifier. -/
structure Adds (e e' : Edited) : Prop where
  ids : e'.diagram.entityIds.Perm (e.diagram.nextId :: e.diagram.entityIds)
  items : ∃ sort x, x.id = e.diagram.nextId ∧ ∀ s, e'.diagram.itemsOf s =
    if s = sort then e.diagram.itemsOf s ++ [x] else e.diagram.itemsOf s
  counter : e'.diagram.counter = EntityId.successor e.diagram.nextId
  changes : e'.changes = e.changes.recordAdded e.diagram.nextId

/-- Nothing changed but the entity of an identifier, and that kept its identifier. -/
structure Alters (id : Nat) (e e' : Edited) : Prop where
  mem : id ∈ e.diagram.entityIds
  ids : ∀ s, Item.ids (e'.diagram.itemsOf s) = Item.ids (e.diagram.itemsOf s)
  items : ∀ s, ∀ x ∈ e.diagram.itemsOf s, x.id ≠ id → x ∈ e'.diagram.itemsOf s
  counter : e'.diagram.counter = e.diagram.counter
  changes : e'.changes = e.changes.recordUpdated id

structure Drops (gone : List Nat) (e e' : Edited) : Prop
    extends loses : Loses gone e.diagram e'.diagram where
  changes : e'.changes = gone.foldl Changes.recordRemoved e.changes

theorem Drops.refl (e : Edited) : Drops [] e e := ⟨Loses.refl _, rfl⟩

theorem Drops.trans {gone more : List Nat} {e f g : Edited} (hef : Drops gone e f)
    (hfg : Drops more f g) : Drops (gone ++ more) e g where
  loses := hef.loses.trans hfg.loses
  changes := by rw [hfg.changes, hef.changes, List.foldl_append]

/-- What an edit does is told by whether it adds, and by its target. -/
def Does (edit : Edit) (e e' : Edited) : Prop :=
  if edit.adds then Adds e e'
  else
    match edit.target? with
    | some id => Alters id e e'
    | none => ∃ gone, Drops gone e e'

theorem ok_of_bind {ε α β : Type} {x : Except ε α} {f : α → Except ε β} {b : β}
    (h : (x >>= f) = .ok b) : ∃ a, x = .ok a ∧ f a = .ok b := by
  cases x with
  | error e => cases h
  | ok a => exact ⟨a, rfl, h⟩

section Inversion

variable {e e' : Edited} {sort : EntitySort} {id : Nat} {β : Type} {found : Option β}

theorem update_eq_ok {set : β → Diagram} (h : e.update sort id (found.map set) = .ok e') :
    ∃ x, found = some x ∧ e' = { diagram := set x, changes := e.changes.recordUpdated id } := by
  cases found with
  | none => cases h
  | some x => exact ⟨x, rfl, (Except.ok.inj h).symm⟩

theorem remove_eq_ok {set : β → Diagram × List Nat}
    (h : e.remove sort id (found.map set) = .ok e') :
    ∃ x, found = some x ∧
      e' = { diagram := (set x).1
             changes := ((set x).2.foldl Changes.recordRemoved e.changes).recordRemoved id } := by
  cases found with
  | none => cases h
  | some x => exact ⟨x, rfl, (Except.ok.inj h).symm⟩

theorem removeNode_eq_ok (h : e.removeNode id = .ok e') :
    ∃ nodes, Entity.remove? id e.diagram.flowchart.nodes = some nodes ∧
      e' = { diagram := (e.diagram.withEdges
               (e.diagram.flowchart.edges.filter fun edge => !edge.touches id)).withNodes nodes
             changes := ((Entity.ids (e.diagram.flowchart.edges.filter fun edge =>
               edge.touches id)).foldl Changes.recordRemoved e.changes).recordRemoved id } := by
  obtain ⟨_, hr, rfl⟩ := remove_eq_ok h
  obtain ⟨nodes, hn, rfl⟩ := Option.map_eq_some_iff.mp hr
  exact ⟨nodes, hn, rfl⟩

theorem removeParticipant_eq_ok (h : e.removeParticipant id = .ok e') :
    ∃ participants, Entity.remove? id e.diagram.sequence.participants = some participants ∧
      e' = { diagram := (e.diagram.withMessages (e.diagram.sequence.messages.filter fun message =>
               !message.touches id)).withParticipants participants
             changes := ((Entity.ids (e.diagram.sequence.messages.filter fun message =>
               message.touches id)).foldl Changes.recordRemoved e.changes).recordRemoved id } := by
  obtain ⟨_, hr, rfl⟩ := remove_eq_ok h
  obtain ⟨participants, hp, rfl⟩ := Option.map_eq_some_iff.mp hr
  exact ⟨participants, hp, rfl⟩

end Inversion

/-! ### One collection -/

section Collection

variable {α : Type} [Entity α] {sort : EntitySort} {wrap : α → Item} {get : Diagram → List α}
  {set : Diagram → List α → Diagram} {e e' : Edited} {id : Nat}

theorem adds_add (h : Holds sort wrap get set) {x : Nat → Diagram → α}
    (hx : ∀ i d, Entity.id (x i d) = i) : Adds e (e.add fun i d => set d (get d ++ [x i d])) where
  ids := by
    have hp : ([e.diagram.nextId] ++ Entity.ids (get e.diagram.allocate.2)).Perm
        ([] ++ Entity.ids (get e.diagram.allocate.2 ++ [x e.diagram.nextId e.diagram.allocate.2])) := by
      rw [Entity.ids_append, Entity.ids_cons, Entity.ids_nil, hx]
      exact List.perm_append_comm
    exact (h.perm hp).symm
  items := by
    refine ⟨sort, wrap (x e.diagram.nextId e.diagram.allocate.2), (h.id_wrap _).trans (hx _ _),
      fun s => ?_⟩
    have hs := h.items_set e.diagram.allocate.2
      (get e.diagram.allocate.2 ++ [x e.diagram.nextId e.diagram.allocate.2]) s
    refine hs.trans ?_
    split
    · next heq =>
      subst heq
      rw [List.map_append, ← h.items_get]
      rfl
    · rfl
  counter := h.counter _ _
  changes := rfl

theorem alters_update (h : Holds sort wrap get set) {f : α → α} {sort' : EntitySort}
    (ho : e.update sort' id ((Entity.update? f id (get e.diagram)).map (set e.diagram)) = .ok e')
    (hf : ∀ x, Entity.id (f x) = Entity.id x) : Alters id e e' := by
  obtain ⟨xs, hu, rfl⟩ := update_eq_ok ho
  refine ⟨h.mem_entityIds (Entity.mem_of_update? hu), fun s => ?_, fun s x hx hne => ?_,
    h.counter _ _, rfl⟩
  · rw [h.items_set]
    split
    · next heq =>
      subst heq
      rw [h.ids_map, h.ids_get, Entity.ids_update? hf hu]
    · rfl
  · rw [h.items_set]
    split
    · next heq =>
      subst heq
      rw [h.items_get] at hx
      obtain ⟨y, hy, rfl⟩ := List.mem_map.mp hx
      rw [h.id_wrap] at hne
      exact List.mem_map_of_mem (Entity.mem_update?_of_ne hu hy hne)
    · exact hx

theorem drops_remove (h : Holds sort wrap get set) {sort' : EntitySort}
    (ho : e.remove sort' id
      ((Entity.remove? id (get e.diagram)).map fun xs => (set e.diagram xs, [])) = .ok e') :
    ∃ gone, Drops gone e e' := by
  obtain ⟨xs, hr, rfl⟩ := remove_eq_ok ho
  exact ⟨[id], h.loses_remove hr, rfl⟩

end Collection

/-! ### Entities with connections -/

theorem drops_removeNode {e e' : Edited} {id : Nat} (h : e.removeNode id = .ok e') :
    ∃ gone, Drops gone e e' := by
  obtain ⟨nodes, hn, rfl⟩ := removeNode_eq_ok h
  -- The edges go first, in the record too.
  have hedges := holds_edges.loses_filter e.diagram fun edge => edge.touches id
  have hnode := holds_nodes.loses_remove
    (d := e.diagram.withEdges (e.diagram.flowchart.edges.filter fun edge => !edge.touches id)) hn
  refine ⟨_, hedges.trans hnode, ?_⟩
  rw [List.foldl_append]
  rfl

theorem drops_removeNodes {e e' : Edited} {ids : List Nat} (h : e.removeNodes ids = .ok e') :
    ∃ gone, Drops gone e e' := by
  induction ids generalizing e with
  | nil =>
    cases h
    exact ⟨[], Drops.refl _⟩
  | cons id ids ih =>
    obtain ⟨f, hf, hr⟩ := ok_of_bind h
    obtain ⟨gone, hgone⟩ := drops_removeNode hf
    obtain ⟨more, hmore⟩ := ih hr
    exact ⟨gone ++ more, hgone.trans hmore⟩

theorem drops_removeParticipant {e e' : Edited} {id : Nat}
    (h : e.removeParticipant id = .ok e') : ∃ gone, Drops gone e e' := by
  obtain ⟨participants, hp, rfl⟩ := removeParticipant_eq_ok h
  have hmessages := holds_messages.loses_filter e.diagram fun message => message.touches id
  have hparticipant := holds_participants.loses_remove
    (d := e.diagram.withMessages
      (e.diagram.sequence.messages.filter fun message => !message.touches id)) hp
  refine ⟨_, hmessages.trans hparticipant, ?_⟩
  rw [List.foldl_append]
  rfl

/-- An edit of nothing but titles, formats or the kind drops no entity. -/
theorem drops_nothing {e : Edited} {d : Diagram} (hi : ∀ s, d.itemsOf s = e.diagram.itemsOf s)
    (hc : d.counter = e.diagram.counter) : ∃ gone, Drops gone e { e with diagram := d } := by
  have hids : d.entityIds = e.diagram.entityIds := entityIds_congr fun s => congrArg _ (hi s)
  refine ⟨[], ⟨?_, fun s => ?_, hc⟩, rfl⟩
  · rw [List.nil_append, hids]
  · rw [hi]

/-! ### Connections -/

/-- An edge keeps its ends, or gets ends that were checked. -/
theorem applyFlowchart_updateEdge {e e' : Edited} {id : Nat} {patch : EdgePatch}
    (h : e.applyFlowchart (.updateEdge id patch) = .ok e') :
    ∃ edge, e.diagram.flowchart.edge? id = some edge ∧
      (patch.source = none ∧ patch.target = none ∨ e.diagram.flowchart.checkEnds
        (patch.apply edge).source (patch.apply edge).target = .ok ()) ∧
      e.update .edge id ((Entity.update? patch.apply id e.diagram.flowchart.edges).map
        e.diagram.withEdges) = .ok e' := by
  unfold applyFlowchart at h
  dsimp only at h
  split at h
  · cases h
  · next edge hedge =>
    refine ⟨edge, hedge, ?_⟩
    split at h
    · obtain ⟨_, hc, h⟩ := ok_of_bind h
      exact ⟨.inr hc, h⟩
    · next hn =>
      rw [not_or, Option.not_isSome_iff_eq_none, Option.not_isSome_iff_eq_none] at hn
      exact ⟨.inl hn, h⟩

/-- A message keeps its ends, or gets ends that were checked. -/
theorem applySequence_updateMessage {e e' : Edited} {id : Nat} {patch : MessagePatch}
    (h : e.applySequence (.updateMessage id patch) = .ok e') :
    ∃ message, Entity.find? e.diagram.sequence.messages id = some message ∧
      (patch.sender = none ∧ patch.receiver = none ∨ e.diagram.sequence.checkEnds
        (patch.apply message).sender (patch.apply message).receiver = .ok ()) ∧
      e.update .message id ((Entity.update? patch.apply id e.diagram.sequence.messages).map
        e.diagram.withMessages) = .ok e' := by
  unfold applySequence at h
  dsimp only at h
  split at h
  · cases h
  · next message hmessage =>
    refine ⟨message, hmessage, ?_⟩
    split at h
    · obtain ⟨_, hc, h⟩ := ok_of_bind h
      exact ⟨.inr hc, h⟩
    · next hn =>
      rw [not_or, Option.not_isSome_iff_eq_none, Option.not_isSome_iff_eq_none] at hn
      exact ⟨.inl hn, h⟩

/-! ### Any edit -/

theorem applyFlowchart_does {e e' : Edited} {edit : FlowchartEdit}
    (h : e.applyFlowchart edit = .ok e') : Does (.flowchart edit) e e' := by
  cases edit with
  | addNode label shape x y =>
    cases h
    exact adds_add holds_nodes fun _ _ => rfl
  | updateNode id patch => exact alters_update holds_nodes h fun _ => rfl
  | moveNode id x y => exact alters_update holds_nodes h fun _ => rfl
  | removeNodes ids => exact drops_removeNodes h
  | addEdge source target label arrow =>
    obtain ⟨_, _, h⟩ := ok_of_bind h
    cases h
    exact adds_add holds_edges fun _ _ => rfl
  | updateEdge id patch =>
    obtain ⟨_, _, _, hu⟩ := applyFlowchart_updateEdge h
    exact alters_update holds_edges hu fun _ => rfl
  | removeEdge id => exact drops_remove holds_edges h

theorem applySequence_does {e e' : Edited} {edit : SequenceEdit}
    (h : e.applySequence edit = .ok e') : Does (.sequence edit) e e' := by
  cases edit with
  | addParticipant name =>
    cases h
    exact adds_add holds_participants fun _ _ => rfl
  | renameParticipant id name => exact alters_update holds_participants h fun _ => rfl
  | removeParticipant id => exact drops_removeParticipant h
  | addMessage sender receiver label line =>
    obtain ⟨_, _, h⟩ := ok_of_bind h
    cases h
    exact adds_add holds_messages fun _ _ => rfl
  | updateMessage id patch =>
    obtain ⟨_, _, _, hu⟩ := applySequence_updateMessage h
    exact alters_update holds_messages hu fun _ => rfl
  | removeMessage id => exact drops_remove holds_messages h

theorem applyPie_does {e e' : Edited} {edit : PieEdit} (h : e.applyPie edit = .ok e') :
    Does (.pie edit) e e' := by
  cases edit with
  | setTitle title =>
    cases h
    exact drops_nothing (fun s => by cases s <;> rfl) rfl
  | addSlice label value =>
    cases h
    exact adds_add holds_slices fun _ _ => rfl
  | updateSlice id patch => exact alters_update holds_slices h fun _ => rfl
  | removeSlice id => exact drops_remove holds_slices h

theorem applyGantt_does {e e' : Edited} {edit : GanttEdit} (h : e.applyGantt edit = .ok e') :
    Does (.gantt edit) e e' := by
  cases edit with
  | setTitle title =>
    cases h
    exact drops_nothing (fun s => by cases s <;> rfl) rfl
  | setDateFormat format =>
    cases h
    exact drops_nothing (fun s => by cases s <;> rfl) rfl
  | addTask group label =>
    cases h
    exact adds_add holds_tasks fun _ _ => rfl
  | updateTask id patch => exact alters_update holds_tasks h fun _ => rfl
  | removeTask id => exact drops_remove holds_tasks h

theorem applyJourney_does {e e' : Edited} {edit : JourneyEdit}
    (h : e.applyJourney edit = .ok e') : Does (.journey edit) e e' := by
  cases edit with
  | setTitle title =>
    cases h
    exact drops_nothing (fun s => by cases s <;> rfl) rfl
  | addStep group task =>
    cases h
    exact adds_add holds_steps fun _ _ => rfl
  | updateStep id patch => exact alters_update holds_steps h fun _ => rfl
  | removeStep id => exact drops_remove holds_steps h

theorem apply_does {e e' : Edited} {edit : Edit} (h : e.apply edit = .ok e') : Does edit e e' := by
  cases edit with
  | flowchart edit => exact applyFlowchart_does h
  | sequence edit => exact applySequence_does h
  | pie edit => exact applyPie_does h
  | gantt edit => exact applyGantt_does h
  | journey edit => exact applyJourney_does h
  | setKind kind =>
    cases h
    exact drops_nothing (fun s => by cases s <;> rfl) rfl

end Edited
end DiagramDoc
