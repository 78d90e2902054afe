import DiagramDoc.Edit.Apply
import DiagramDoc.Proofs.Diagram.Identifiers
import Mathlib.Data.List.Flatten

/-!
# The collections of a diagram

The entities of all seven sorts as values of one type, so that what an edit does to its collection
and what it leaves alone is said once. A list of entities shorter by some of them leaves the diagram
shorter by the same identifiers.
-/

namespace DiagramDoc

/-- An entity of any sort. -/
inductive Item where
  | node (n : Node)
  | edge (e : Edge)
  | participant (p : Participant)
  | message (m : Message)
  | slice (s : Slice)
  | task (t : Task)
  | step (s : Step)
deriving DecidableEq

namespace Item

def id : Item → Nat
  | .node n => n.id
  | .edge e => e.id
  | .participant p => p.id
  | .message m => m.id
  | .slice s => s.id
  | .task t => t.id
  | .step s => s.id

def ids (items : List Item) : List Nat := items.map id

@[simp] theorem ids_append (xs ys : List Item) : ids (xs ++ ys) = ids xs ++ ids ys := List.map_append

end Item

def EntitySort.all : List EntitySort := [.node, .edge, .participant, .message, .slice, .task, .step]

theorem EntitySort.mem_all (sort : EntitySort) : sort ∈ all := by
  cases sort <;> decide

namespace Diagram

/-- The collection of a sort. -/
def itemsOf (d : Diagram) : EntitySort → List Item
  | .node => d.flowchart.nodes.map .node
  | .edge => d.flowchart.edges.map .edge
  | .participant => d.sequence.participants.map .participant
  | .message => d.sequence.messages.map .message
  | .slice => d.pie.slices.map .slice
  | .task => d.gantt.tasks.map .task
  | .step => d.journey.steps.map .step

theorem entityIds_eq_flatMap (d : Diagram) :
    d.entityIds = EntitySort.all.flatMap fun sort => Item.ids (d.itemsOf sort) := by
  rw [entityIds_eq]
  simp only [EntitySort.all, List.flatMap_cons, List.flatMap_nil, List.append_nil, itemsOf, Item.ids,
    List.map_map]
  rfl

theorem mem_entityIds_iff {d : Diagram} {id : Nat} :
    id ∈ d.entityIds ↔ ∃ sort, id ∈ Item.ids (d.itemsOf sort) := by
  rw [entityIds_eq_flatMap, List.mem_flatMap]
  exact ⟨fun ⟨sort, _, hid⟩ => ⟨sort, hid⟩, fun ⟨sort, hid⟩ => ⟨sort, sort.mem_all, hid⟩⟩

theorem entityIds_congr {d d' : Diagram}
    (h : ∀ sort, Item.ids (d'.itemsOf sort) = Item.ids (d.itemsOf sort)) :
    d'.entityIds = d.entityIds := by
  rw [entityIds_eq_flatMap, entityIds_eq_flatMap]
  exact List.flatMap_congr fun sort _ => h sort

theorem entityIds_sublist {d d' : Diagram} (h : ∀ sort, (d'.itemsOf sort).Sublist (d.itemsOf sort)) :
    d'.entityIds.Sublist d.entityIds := by
  rw [entityIds_eq_flatMap, entityIds_eq_flatMap]
  exact List.Sublist.flatMap_right _ fun sort _ => (h sort).map Item.id

/-! ### Collections that are read and replaced -/

/-- The collection that `get` reads and `set` replaces is that of a sort. -/
structure Holds {α : Type} [Entity α] (sort : EntitySort) (wrap : α → Item)
    (get : Diagram → List α) (set : Diagram → List α → Diagram) : Prop where
  id_wrap : ∀ x, (wrap x).id = Entity.id x
  items_get : ∀ d, d.itemsOf sort = (get d).map wrap
  items_set : ∀ d xs s, (set d xs).itemsOf s = if s = sort then xs.map wrap else d.itemsOf s
  counter : ∀ d xs, (set d xs).counter = d.counter

theorem holds_nodes : Holds .node .node (fun d => d.flowchart.nodes) withNodes :=
  ⟨fun _ => rfl, fun _ => rfl, fun _ _ s => by cases s <;> rfl, fun _ _ => rfl⟩

theorem holds_edges : Holds .edge .edge (fun d => d.flowchart.edges) withEdges :=
  ⟨fun _ => rfl, fun _ => rfl, fun _ _ s => by cases s <;> rfl, fun _ _ => rfl⟩

theorem holds_participants :
    Holds .participant .participant (fun d => d.sequence.participants) withParticipants :=
  ⟨fun _ => rfl, fun _ => rfl, fun _ _ s => by cases s <;> rfl, fun _ _ => rfl⟩

theorem holds_messages : Holds .message .message (fun d => d.sequence.messages) withMessages :=
  ⟨fun _ => rfl, fun _ => rfl, fun _ _ s => by cases s <;> rfl, fun _ _ => rfl⟩

theorem holds_slices : Holds .slice .slice (fun d => d.pie.slices) withSlices :=
  ⟨fun _ => rfl, fun _ => rfl, fun _ _ s => by cases s <;> rfl, fun _ _ => rfl⟩

theorem holds_tasks : Holds .task .task (fun d => d.gantt.tasks) withTasks :=
  ⟨fun _ => rfl, fun _ => rfl, fun _ _ s => by cases s <;> rfl, fun _ _ => rfl⟩

theorem holds_steps : Holds .step .step (fun d => d.journey.steps) withSteps :=
  ⟨fun _ => rfl, fun _ => rfl, fun _ _ s => by cases s <;> rfl, fun _ _ => rfl⟩

section Holds

variable {α : Type} [Entity α] {sort : EntitySort} {wrap : α → Item} {get : Diagram → List α}
  {set : Diagram → List α → Diagram}

theorem Holds.ids_map (h : Holds sort wrap get set) (xs : List α) :
    Item.ids (xs.map wrap) = Entity.ids xs := by
  unfold Item.ids Entity.ids
  rw [List.map_map]
  exact List.map_congr_left fun x _ => h.id_wrap x

theorem Holds.ids_get (h : Holds sort wrap get set) (d : Diagram) :
    Item.ids (d.itemsOf sort) = Entity.ids (get d) := by
  rw [h.items_get, h.ids_map]

theorem Holds.mem_entityIds (h : Holds sort wrap get set) {d : Diagram} {id : Nat}
    (hid : id ∈ Entity.ids (get d)) : id ∈ d.entityIds :=
  mem_entityIds_iff.mpr ⟨sort, h.ids_get d ▸ hid⟩

/-- What one collection loses or gains is what the whole diagram loses or gains. -/
theorem Holds.perm (h : Holds sort wrap get set) {d : Diagram} {xs : List α} {gone new : List Nat}
    (hp : (new ++ Entity.ids (get d)).Perm (gone ++ Entity.ids xs)) :
    (new ++ d.entityIds).Perm (gone ++ (set d xs).entityIds) := by
  have hsplit : ∀ e : Diagram, e.entityIds.Perm (Item.ids (e.itemsOf sort) ++
      (EntitySort.all.erase sort).flatMap fun s => Item.ids (e.itemsOf s)) := by
    intro e
    rw [entityIds_eq_flatMap]
    exact (List.perm_cons_erase sort.mem_all).flatMap_right _
  have hrest : ((EntitySort.all.erase sort).flatMap fun s => Item.ids ((set d xs).itemsOf s)) =
      (EntitySort.all.erase sort).flatMap fun s => Item.ids (d.itemsOf s) := by
    refine List.flatMap_congr fun s hs => ?_
    have hne : s ≠ sort := by
      rintro rfl
      cases s <;> revert hs <;> decide
    rw [h.items_set, if_neg hne]
  have hset : Item.ids ((set d xs).itemsOf sort) = Entity.ids xs := by
    rw [h.items_set, if_pos rfl, h.ids_map]
  have hd := hsplit d
  have he := hsplit (set d xs)
  rw [h.ids_get] at hd
  rw [hset, hrest] at he
  have hmid := hp.append_right
    ((EntitySort.all.erase sort).flatMap fun s => Item.ids (d.itemsOf s))
  rw [List.append_assoc, List.append_assoc] at hmid
  exact (hd.append_left new).trans (hmid.trans (he.append_left gone).symm)

end Holds

/-! ### Dropping entities -/

/-- A diagram is as another, without entities of some identifiers. -/
structure Loses (gone : List Nat) (d d' : Diagram) : Prop where
  ids : d.entityIds.Perm (gone ++ d'.entityIds)
  items : ∀ sort, (d'.itemsOf sort).Sublist (d.itemsOf sort)
  counter : d'.counter = d.counter

theorem Loses.refl (d : Diagram) : Loses [] d d :=
  ⟨List.Perm.refl _, fun _ => List.Sublist.refl _, rfl⟩

theorem Loses.trans {gone more : List Nat} {d e f : Diagram} (hde : Loses gone d e)
    (hef : Loses more e f) : Loses (gone ++ more) d f where
  ids := by
    rw [List.append_assoc]
    exact hde.ids.trans (hef.ids.append_left gone)
  items sort := (hef.items sort).trans (hde.items sort)
  counter := hef.counter.trans hde.counter

section Loses

variable {α : Type} [Entity α] {sort : EntitySort} {wrap : α → Item} {get : Diagram → List α}
  {set : Diagram → List α → Diagram}

theorem Holds.loses (h : Holds sort wrap get set) {d : Diagram} {xs : List α} {gone : List Nat}
    (hs : xs.Sublist (get d)) (hp : (Entity.ids (get d)).Perm (gone ++ Entity.ids xs)) :
    Loses gone d (set d xs) where
  ids := by
    have hnone : ([] ++ Entity.ids (get d)).Perm (gone ++ Entity.ids xs) := hp
    exact h.perm hnone
  items s := by
    rw [h.items_set]
    split
    · next heq =>
      subst heq
      rw [h.items_get]
      exact hs.map wrap
    · exact List.Sublist.refl _
  counter := h.counter d xs

theorem Holds.loses_remove (h : Holds sort wrap get set) {d : Diagram} {xs : List α} {id : Nat}
    (hr : Entity.remove? id (get d) = some xs) : Loses [id] d (set d xs) :=
  h.loses (Entity.remove?_sublist hr) (Entity.perm_remove? hr)

theorem Holds.loses_filter (h : Holds sort wrap get set) (d : Diagram) (p : α → Bool) :
    Loses (Entity.ids ((get d).filter p)) d (set d ((get d).filter fun x => !p x)) :=
  h.loses List.filter_sublist (Entity.perm_filter p (get d))

end Loses

end Diagram
end DiagramDoc
