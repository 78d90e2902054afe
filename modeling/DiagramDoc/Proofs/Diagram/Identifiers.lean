import DiagramDoc.Proofs.Diagram.Entity
import Mathlib.Data.List.Perm.Basic

/-!
# The identifiers of a diagram

All identifiers in one list, the largest of them and the first free one. A diagram is determined by
what it is without identifiers, the list of these, and its counter.
-/

namespace DiagramDoc

namespace EntityId

theorem successor_le (n : Nat) : successor n ≤ n + 1 := Nat.min_le_left _ _

theorem lt_largest_of_successor {n : Nat} (h : successor n < largest) : n < largest := by
  by_contra hn
  have he : successor n = largest := Nat.min_eq_right (by omega)
  omega

theorem successor_eq_of_lt {n : Nat} (h : successor n < largest) : successor n = n + 1 :=
  successor_eq (lt_largest_of_successor h)

end EntityId

namespace Diagram

theorem entityIds_eq (d : Diagram) :
    d.entityIds = Entity.ids d.flowchart.nodes ++ (Entity.ids d.flowchart.edges ++
      (Entity.ids d.sequence.participants ++ (Entity.ids d.sequence.messages ++
        (Entity.ids d.pie.slices ++ (Entity.ids d.gantt.tasks ++
          Entity.ids d.journey.steps))))) := by
  simp [entityIds, Kind.all, idsOf]

/-- The identifiers of each collection. -/
def idLists (d : Diagram) : List (List Nat) :=
  [Entity.ids d.flowchart.nodes, Entity.ids d.flowchart.edges, Entity.ids d.sequence.participants,
    Entity.ids d.sequence.messages, Entity.ids d.pie.slices, Entity.ids d.gantt.tasks,
    Entity.ids d.journey.steps]

theorem flatten_idLists (d : Diagram) : d.idLists.flatten = d.entityIds := by
  rw [entityIds_eq, idLists]
  simp only [List.flatten_cons, List.flatten_nil, List.append_nil]

theorem entityIds_perm (d : Diagram) (k : Kind) :
    d.entityIds.Perm (d.idsOf k ++ d.idsExcept k) := by
  refine List.perm_iff_count.mpr fun id => ?_
  cases k <;>
    simp only [entityIds, idsExcept, Kind.all, List.flatMap_cons, List.flatMap_nil,
      List.filter_cons, List.filter_nil, List.count_append, List.count_nil, ne_eq, reduceCtorEq,
      not_true_eq_false, not_false_eq_true, decide_true, decide_false, if_true, Bool.false_eq_true,
      if_false] <;>
    omega

theorem mem_entityIds (d : Diagram) (k : Kind) {id : Nat} :
    id ∈ d.entityIds ↔ id ∈ d.idsOf k ∨ id ∈ d.idsExcept k := by
  rw [(d.entityIds_perm k).mem_iff, List.mem_append]

/-! ### All charts but one -/

/-- Two diagrams hold the same charts of all kinds but one. -/
structure AgreesExcept (kind : Kind) (d e : Diagram) : Prop where
  flowchart : kind ≠ .flowchart → d.flowchart = e.flowchart
  sequence : kind ≠ .sequence → d.sequence = e.sequence
  pie : kind ≠ .pie → d.pie = e.pie
  gantt : kind ≠ .gantt → d.gantt = e.gantt
  journey : kind ≠ .journey → d.journey = e.journey

theorem AgreesExcept.refl (kind : Kind) (d : Diagram) : AgreesExcept kind d d :=
  ⟨fun _ => rfl, fun _ => rfl, fun _ => rfl, fun _ => rfl, fun _ => rfl⟩

theorem AgreesExcept.trans {kind : Kind} {d e f : Diagram} (hde : AgreesExcept kind d e)
    (hef : AgreesExcept kind e f) : AgreesExcept kind d f where
  flowchart h := (hde.flowchart h).trans (hef.flowchart h)
  sequence h := (hde.sequence h).trans (hef.sequence h)
  pie h := (hde.pie h).trans (hef.pie h)
  gantt h := (hde.gantt h).trans (hef.gantt h)
  journey h := (hde.journey h).trans (hef.journey h)

theorem AgreesExcept.idsExcept_eq {kind : Kind} {d e : Diagram} (h : AgreesExcept kind d e) :
    d.idsExcept kind = e.idsExcept kind := by
  have hf := h.flowchart
  have hs := h.sequence
  have hp := h.pie
  have hg := h.gantt
  have hj := h.journey
  cases kind <;> simp_all [idsExcept, Kind.all, idsOf]

/-! ### The largest identifier and the first free one -/

theorem foldl_max_le {a b : Nat} {l : List Nat} :
    l.foldl max a ≤ b ↔ a ≤ b ∧ ∀ x ∈ l, x ≤ b := by
  induction l generalizing a with
  | nil => simp
  | cons x l ih =>
    rw [List.foldl_cons, ih, Nat.max_le, List.forall_mem_cons, and_assoc]

theorem maxId_le {d : Diagram} {b : Nat} : d.maxId ≤ b ↔ ∀ id ∈ d.entityIds, id ≤ b := by
  rw [maxId, foldl_max_le]
  exact ⟨fun h => h.2, fun h => ⟨Nat.zero_le b, h⟩⟩

theorem le_maxId {d : Diagram} {id : Nat} (h : id ∈ d.entityIds) : id ≤ d.maxId :=
  maxId_le.mp (Nat.le_refl _) id h

theorem maxId_mem {d : Diagram} (h : 0 < d.maxId) : d.maxId ∈ d.entityIds := by
  by_contra hn
  have hle : d.maxId ≤ d.maxId - 1 := by
    refine maxId_le.mpr fun id hid => ?_
    have hm := le_maxId hid
    have hne : id ≠ d.maxId := fun he => hn (he ▸ hid)
    omega
  omega

theorem counter_le_nextId (d : Diagram) : d.counter ≤ d.nextId := Nat.le_max_left _ _

theorem nextId_pos (d : Diagram) : 0 < d.nextId :=
  Nat.lt_of_lt_of_le (EntityId.successor_pos d.maxId) (Nat.le_max_right _ _)

theorem nextId_le (d : Diagram) : d.nextId ≤ max d.counter (d.maxId + 1) := by
  have hs := EntityId.successor_le d.maxId
  exact Nat.max_le.mpr ⟨Nat.le_max_left _ _, Nat.le_trans hs (Nat.le_max_right _ _)⟩

theorem lt_nextId {d : Diagram} {id : Nat} (hid : id ∈ d.entityIds)
    (h : d.nextId < EntityId.largest) : id < d.nextId := by
  have hs : EntityId.successor d.maxId ≤ d.nextId := Nat.le_max_right _ _
  have hm : id ≤ d.maxId := le_maxId hid
  rw [EntityId.successor_eq_of_lt (Nat.lt_of_le_of_lt hs h)] at hs
  omega

theorem max_successor_maxId {d : Diagram} {next : Nat} (hp : 0 < next)
    (h : ∀ id ∈ d.entityIds, id < next) : max next (EntityId.successor d.maxId) = next := by
  have hm : d.maxId ≤ next - 1 := by
    refine maxId_le.mpr fun id hid => ?_
    have hb := h id hid
    omega
  have hs := EntityId.successor_le d.maxId
  omega

theorem Valid.nextId_eq {d : Diagram} (h : d.Valid) (hc : 1 ≤ d.counter) :
    d.nextId = d.counter := max_successor_maxId hc h.below

/-- Only the identifiers and the counter decide whether a diagram is valid. -/
theorem Valid.of_perm {d e : Diagram} (h : d.Valid) (hp : e.entityIds.Perm d.entityIds)
    (hc : d.counter ≤ e.counter) : e.Valid where
  present id hid := h.present id (hp.mem_iff.mp hid)
  distinct := hp.nodup_iff.mpr h.distinct
  below id hid := Nat.lt_of_lt_of_le (h.below id (hp.mem_iff.mp hid)) hc

/-! ### Diagrams without identifiers -/

/-- A diagram with its identifiers and its counter taken away. -/
def anonymous (d : Diagram) : Diagram where
  kind := d.kind
  counter := 0
  flowchart :=
    { nodes := Entity.anonymous d.flowchart.nodes, edges := Entity.anonymous d.flowchart.edges }
  sequence :=
    { participants := Entity.anonymous d.sequence.participants
      messages := Entity.anonymous d.sequence.messages }
  pie := { d.pie with slices := Entity.anonymous d.pie.slices }
  gantt := { d.gantt with tasks := Entity.anonymous d.gantt.tasks }
  journey := { d.journey with steps := Entity.anonymous d.journey.steps }

theorem length_idLists_anonymous (d : Diagram) :
    d.anonymous.idLists.map List.length = d.idLists.map List.length := by
  simp [idLists, anonymous, Entity.anonymous]

theorem eq_of_anonymous {d e : Diagram} (ha : d.anonymous = e.anonymous)
    (hi : d.entityIds = e.entityIds) (hc : d.counter = e.counter) : d = e := by
  -- The collections have equal lengths, so the two lists of identifiers split at equal places.
  obtain ⟨kind, counter, ⟨nodes, edges⟩, ⟨participants, messages⟩, ⟨pieTitle, slices⟩,
    ⟨ganttTitle, format, tasks⟩, ⟨journeyTitle, steps⟩⟩ := d
  obtain ⟨kind', counter', ⟨nodes', edges'⟩, ⟨participants', messages'⟩, ⟨pieTitle', slices'⟩,
    ⟨ganttTitle', format', tasks'⟩, ⟨journeyTitle', steps'⟩⟩ := e
  simp only [anonymous, mk.injEq, Flowchart.mk.injEq, Sequence.mk.injEq, Pie.mk.injEq,
    Gantt.mk.injEq, Journey.mk.injEq, true_and] at ha
  obtain ⟨rfl, ⟨hn, he⟩, ⟨hp, hm⟩, ⟨rfl, hs⟩, ⟨rfl, rfl, ht⟩, ⟨rfl, hj⟩⟩ := ha
  obtain rfl : counter = counter' := hc
  have hlen {α : Type} [Entity α] {xs ys : List α} (h : Entity.anonymous xs = Entity.anonymous ys) :
      (Entity.ids xs).length = (Entity.ids ys).length := by
    rw [Entity.length_ids, Entity.length_ids, Entity.length_eq_of_anonymous h]
  simp only [entityIds_eq] at hi
  obtain ⟨hin, hi⟩ := List.append_inj hi (hlen hn)
  obtain ⟨hie, hi⟩ := List.append_inj hi (hlen he)
  obtain ⟨hip, hi⟩ := List.append_inj hi (hlen hp)
  obtain ⟨him, hi⟩ := List.append_inj hi (hlen hm)
  obtain ⟨his, hi⟩ := List.append_inj hi (hlen hs)
  obtain ⟨hit, hij⟩ := List.append_inj hi (hlen ht)
  rw [Entity.eq_of_anonymous hn hin, Entity.eq_of_anonymous he hie,
    Entity.eq_of_anonymous hp hip, Entity.eq_of_anonymous hm him, Entity.eq_of_anonymous hs his,
    Entity.eq_of_anonymous ht hit, Entity.eq_of_anonymous hj hij]

end Diagram
end DiagramDoc
