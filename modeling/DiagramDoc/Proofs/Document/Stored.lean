import DiagramDoc.Document.Decode
import DiagramDoc.Document.Encode
import DiagramDoc.Proofs.Diagram.Reconcile
import DiagramDoc.Proofs.Number.Whole

/-!
# Reading the document of a diagram

Identifiers up to `2⁵³ - 1` are found again in the document of a diagram, and larger ones are
missing. Everything else is found again in a diagram that was itself read from some document.
-/

namespace DiagramDoc

namespace EntityId

/-- What an identifier is read as. -/
def accept (id : Nat) : Nat := if id ≤ largestRead then id else missing

theorem accept_of_le {id : Nat} (h : id ≤ largestRead) : accept id = id := if_pos h

theorem accept_of_lt {id : Nat} (h : largestRead < id) : accept id = missing :=
  if_neg (Nat.not_le_of_gt h)

theorem accept_le (id : Nat) : accept id ≤ id ∧ accept id ≤ largestRead := by
  by_cases h : id ≤ largestRead
  · rw [accept_of_le h]
    exact ⟨Nat.le_refl id, h⟩
  · rw [accept_of_lt (Nat.lt_of_not_le h)]
    exact ⟨Nat.zero_le id, Nat.zero_le _⟩

end EntityId

namespace Number

/-- A number that a field with a default may hold once it was read. -/
structure Kept (x default : Number) : Prop where
  finite : x.isFinite = true
  zero : x.isZero = true → x = default

end Number

namespace Lenient

theorem entityId_of_toInt? {field : Option Json} {n : Nat}
    (h : (number field).toInt? = some (n : Int)) (hn : n ≤ EntityId.largestRead) :
    entityId field = n := by
  unfold entityId
  rw [h]
  dsimp only
  split
  · exact Int.toNat_natCast n
  · have hz : n = 0 := by omega
    exact hz.symm

theorem entityId_eq_missing {field : Option Json}
    (h : ∀ i, (number field).toInt? = some i → (EntityId.largestRead : Int) < i) :
    entityId field = EntityId.missing := by
  unfold entityId
  split
  · next i hi =>
    have hl := h i hi
    exact if_neg (by omega)
  · rfl

theorem entityId_ofNat (n : Nat) : entityId (some (.ofNat n)) = EntityId.accept n := by
  have hnum : number (some (.ofNat n)) = Number.ofInt n := rfl
  have hm : EntityId.largestRead = 0x1FFFFFFFFFFFFF := rfl
  by_cases h : n ≤ EntityId.largestRead
  · rw [EntityId.accept_of_le h]
    refine entityId_of_toInt? ?_ h
    rw [hnum]
    exact Number.toInt?_ofInt (by omega)
  · rw [EntityId.accept_of_lt (Nat.lt_of_not_le h)]
    refine entityId_eq_missing fun i hi => ?_
    rw [hnum] at hi
    have hl := Number.le_of_toInt?_ofInt (by omega) hi
    omega

theorem entityId_le (field : Option Json) : entityId field ≤ EntityId.largestRead := by
  unfold entityId
  split
  · split
    · omega
    · exact Nat.zero_le _
  · exact Nat.zero_le _

theorem numberOr_ofNumber {default x : Number} (h : x.Kept default) :
    numberOr default (some (.ofNumber x)) = x := by
  have hx : Json.ofNumber x = .real x := if_pos h.finite
  rw [hx]
  show (if x.isFinite && !x.isZero then x else default) = x
  cases hz : x.isZero with
  | false => simp [h.finite]
  | true => simp [h.zero hz]

theorem kept_numberOr {default : Number} (h : default.isFinite = true) (field : Option Json) :
    (numberOr default field).Kept default := by
  unfold numberOr
  dsimp only
  split
  · next hx =>
    simp only [Bool.and_eq_true, Bool.not_eq_true'] at hx
    exact ⟨hx.1, fun hz => by rw [hx.2] at hz; cases hz⟩
  · exact ⟨h, fun _ => rfl⟩

theorem choice_name {α : Type} {ofName? : Text → Option α} {name : Text} {a : α}
    (h : ofName? name = some a) (default : α) :
    choice ofName? default (some (.text name)) = a := by
  show (ofName? name).getD default = a
  rw [h]
  rfl

end Lenient

/-! ### Lists of entities -/

namespace Entity

variable {α : Type} [Entity α]

def accepted (xs : List α) : List α := xs.map fun x => withId x (EntityId.accept (id x))

theorem anonymous_accepted [LawfulEntity α] (xs : List α) :
    anonymous (accepted xs) = anonymous xs := by
  unfold anonymous accepted
  rw [List.map_map]
  exact List.map_congr_left fun x _ => LawfulEntity.withId_withId x _ _

variable {toJson : α → Json} {ofJson : Json → α}

theorem map_ofJson_toJson (xs : List α)
    (h : ∀ x ∈ xs, ofJson (toJson x) = withId x (EntityId.accept (id x))) :
    (Lenient.items (some (.array (xs.map toJson)))).map ofJson = accepted xs := by
  show (xs.map toJson).map ofJson = accepted xs
  rw [List.map_map]
  exact List.map_congr_left h

theorem ids_map_ofJson_toJson (h : ∀ x, id (ofJson (toJson x)) = EntityId.accept (id x))
    (xs : List α) :
    ids ((Lenient.items (some (.array (xs.map toJson)))).map ofJson) =
      (ids xs).map EntityId.accept := by
  show ids ((xs.map toJson).map ofJson) = (ids xs).map EntityId.accept
  unfold ids
  rw [List.map_map, List.map_map, List.map_map]
  exact List.map_congr_left fun x _ => h x

end Entity

/-! ### What a document can hold -/

def Node.Storable (n : Node) : Prop :=
  n.x.Kept 0 ∧ n.y.Kept 0 ∧ n.width.Kept 160 ∧ n.height.Kept 64

def Edge.Storable (e : Edge) : Prop :=
  e.source ≤ EntityId.largestRead ∧ e.target ≤ EntityId.largestRead

def Message.Storable (m : Message) : Prop :=
  m.sender ≤ EntityId.largestRead ∧ m.receiver ≤ EntityId.largestRead

def Slice.Storable (s : Slice) : Prop := s.value.Kept 0

def Step.Storable (s : Step) : Prop := s.score.Kept Step.defaultScore

/-- Nothing but identifiers is changed when the document of a diagram is read. -/
structure Diagram.Storable (d : Diagram) : Prop where
  nodes : ∀ n ∈ d.flowchart.nodes, n.Storable
  edges : ∀ e ∈ d.flowchart.edges, e.Storable
  messages : ∀ m ∈ d.sequence.messages, m.Storable
  slices : ∀ s ∈ d.pie.slices, s.Storable
  steps : ∀ s ∈ d.journey.steps, s.Storable

section Entities

open Lenient

theorem Node.storable_ofJson (v : Json) : (Node.ofJson v).Storable := by
  refine ⟨?_, ?_, ?_, ?_⟩
  all_goals exact kept_numberOr (Number.isFinite_ofNat (by decide)) _

theorem Edge.storable_ofJson (v : Json) : (Edge.ofJson v).Storable :=
  ⟨entityId_le _, entityId_le _⟩

theorem Message.storable_ofJson (v : Json) : (Message.ofJson v).Storable :=
  ⟨entityId_le _, entityId_le _⟩

theorem Slice.storable_ofJson (v : Json) : (Slice.ofJson v).Storable :=
  kept_numberOr (Number.isFinite_ofNat (by decide)) _

theorem Step.storable_ofJson (v : Json) : (Step.ofJson v).Storable :=
  kept_numberOr (Number.isFinite_ofNat (n := 3) (by decide)) _

/-! What is read from the document of an entity, and that it is the entity if it can be stored. -/

theorem Node.reread (n : Node) : Node.ofJson n.toJson =
    { n with
      id := EntityId.accept n.id
      x := numberOr 0 (some (.ofNumber n.x))
      y := numberOr 0 (some (.ofNumber n.y))
      width := numberOr 160 (some (.ofNumber n.width))
      height := numberOr 64 (some (.ofNumber n.height)) } := by
  have hs := choice_name (Shape.ofName?_name n.shape) .process
  rw [← entityId_ofNat]
  calc Node.ofJson n.toJson
      = { n with
          id := entityId (some (.ofNat n.id))
          x := numberOr 0 (some (.ofNumber n.x))
          y := numberOr 0 (some (.ofNumber n.y))
          width := numberOr 160 (some (.ofNumber n.width))
          height := numberOr 64 (some (.ofNumber n.height))
          shape := choice Shape.ofName? .process (some (.text n.shape.name)) } := rfl
    _ = _ := by rw [hs]

theorem Node.ofJson_toJson {n : Node} (h : n.Storable) :
    Node.ofJson n.toJson = Entity.withId n (EntityId.accept n.id) := by
  obtain ⟨hx, hy, hw, hh⟩ := h
  rw [Node.reread, numberOr_ofNumber hx, numberOr_ofNumber hy, numberOr_ofNumber hw,
    numberOr_ofNumber hh]
  rfl

theorem Edge.reread (e : Edge) : Edge.ofJson e.toJson =
    { e with
      id := EntityId.accept e.id
      source := EntityId.accept e.source
      target := EntityId.accept e.target } := by
  have ha := choice_name (Arrow.ofName?_name e.arrow) .forward
  simp only [← entityId_ofNat]
  calc Edge.ofJson e.toJson
      = { e with
          id := entityId (some (.ofNat e.id))
          source := entityId (some (.ofNat e.source))
          target := entityId (some (.ofNat e.target))
          arrow := choice Arrow.ofName? .forward (some (.text e.arrow.name)) } := rfl
    _ = _ := by rw [ha]

theorem Edge.ofJson_toJson {e : Edge} (h : e.Storable) :
    Edge.ofJson e.toJson = Entity.withId e (EntityId.accept e.id) := by
  rw [Edge.reread, EntityId.accept_of_le h.1, EntityId.accept_of_le h.2]
  rfl

theorem Participant.ofJson_toJson (p : Participant) :
    Participant.ofJson p.toJson = Entity.withId p (EntityId.accept p.id) := by
  rw [← entityId_ofNat]
  rfl

theorem Message.reread (m : Message) : Message.ofJson m.toJson =
    { m with
      id := EntityId.accept m.id
      sender := EntityId.accept m.sender
      receiver := EntityId.accept m.receiver } := by
  have hl := choice_name (Line.ofName?_name m.line) .solid
  simp only [← entityId_ofNat]
  calc Message.ofJson m.toJson
      = { m with
          id := entityId (some (.ofNat m.id))
          sender := entityId (some (.ofNat m.sender))
          receiver := entityId (some (.ofNat m.receiver))
          line := choice Line.ofName? .solid (some (.text m.line.name)) } := rfl
    _ = _ := by rw [hl]

theorem Message.ofJson_toJson {m : Message} (h : m.Storable) :
    Message.ofJson m.toJson = Entity.withId m (EntityId.accept m.id) := by
  rw [Message.reread, EntityId.accept_of_le h.1, EntityId.accept_of_le h.2]
  rfl

theorem Slice.reread (s : Slice) : Slice.ofJson s.toJson =
    { s with
      id := EntityId.accept s.id
      value := numberOr 0 (some (.ofNumber s.value)) } := by
  rw [← entityId_ofNat]
  rfl

theorem Slice.ofJson_toJson {s : Slice} (h : s.Storable) :
    Slice.ofJson s.toJson = Entity.withId s (EntityId.accept s.id) := by
  rw [Slice.reread, numberOr_ofNumber h]
  rfl

theorem Task.ofJson_toJson (t : Task) :
    Task.ofJson t.toJson = Entity.withId t (EntityId.accept t.id) := by
  have hs := TaskStatus.ofText?_nameOf t.status
  rw [← entityId_ofNat]
  calc Task.ofJson t.toJson
      = { t with
          id := entityId (some (.ofNat t.id))
          status := (TaskStatus.ofText? (TaskStatus.nameOf t.status)).getD none } := rfl
    _ = _ := by rw [hs]; rfl

theorem Step.reread (s : Step) : Step.ofJson s.toJson =
    { s with
      id := EntityId.accept s.id
      score := numberOr Step.defaultScore (some (.ofNumber s.score)) } := by
  have hp : (s.personas.map Json.text).map (fun p => textOr [] (some p)) = s.personas := by
    rw [List.map_map]
    exact List.map_id s.personas
  have hs : Step.ofJson s.toJson =
      { s with
        id := entityId (some (.ofNat s.id))
        score := numberOr Step.defaultScore (some (.ofNumber s.score))
        personas := (s.personas.map Json.text).map fun p => textOr [] (some p) } := rfl
  rw [hs, entityId_ofNat, hp]

theorem Step.ofJson_toJson {s : Step} (h : s.Storable) :
    Step.ofJson s.toJson = Entity.withId s (EntityId.accept s.id) := by
  rw [Step.reread, numberOr_ofNumber h]
  rfl

end Entities

namespace Diagram

open Lenient

theorem storable_coerce (v : Json) : (coerce v).Storable where
  nodes := List.forall_mem_map.mpr fun v _ => Node.storable_ofJson v
  edges := List.forall_mem_map.mpr fun v _ => Edge.storable_ofJson v
  messages := List.forall_mem_map.mpr fun v _ => Message.storable_ofJson v
  slices := List.forall_mem_map.mpr fun v _ => Slice.storable_ofJson v
  steps := List.forall_mem_map.mpr fun v _ => Step.storable_ofJson v

theorem storable_anonymous {d : Diagram} : d.anonymous.Storable ↔ d.Storable := by
  have hn := Entity.forall_anonymous Node.Storable d.flowchart.nodes fun _ _ => .rfl
  have he := Entity.forall_anonymous Edge.Storable d.flowchart.edges fun _ _ => .rfl
  have hm := Entity.forall_anonymous Message.Storable d.sequence.messages fun _ _ => .rfl
  have hp := Entity.forall_anonymous Slice.Storable d.pie.slices fun _ _ => .rfl
  have hj := Entity.forall_anonymous Step.Storable d.journey.steps fun _ _ => .rfl
  constructor
  · intro h
    exact ⟨hn.mp h.nodes, he.mp h.edges, hm.mp h.messages, hp.mp h.slices, hj.mp h.steps⟩
  · intro h
    exact ⟨hn.mpr h.nodes, he.mpr h.edges, hm.mpr h.messages, hp.mpr h.slices, hj.mpr h.steps⟩

theorem entityIds_coerce_le (v : Json) :
    ∀ id ∈ (coerce v).entityIds, id ≤ EntityId.largestRead := by
  rw [entityIds_eq]
  simp only [List.forall_mem_append]
  refine ⟨?_, ?_, ?_, ?_, ?_, ?_, ?_⟩
  all_goals
    refine List.forall_mem_map.mpr (List.forall_mem_map.mpr fun v _ => ?_)
    exact entityId_le (v.member? "id".toList)

theorem counter_coerce_le (v : Json) : (coerce v).counter ≤ EntityId.largestRead :=
  Nat.max_le.mpr ⟨by decide, entityId_le _⟩

theorem coerce_toJson (d : Diagram) : coerce d.toJson =
    { kind := d.kind
      counter := max 1 (EntityId.accept d.counter)
      flowchart :=
        { nodes := (items (some (.array (d.flowchart.nodes.map Node.toJson)))).map Node.ofJson
          edges := (items (some (.array (d.flowchart.edges.map Edge.toJson)))).map Edge.ofJson }
      sequence :=
        { participants := (items (some
            (.array (d.sequence.participants.map Participant.toJson)))).map Participant.ofJson
          messages := (items (some
            (.array (d.sequence.messages.map Message.toJson)))).map Message.ofJson }
      pie :=
        { d.pie with
          slices := (items (some (.array (d.pie.slices.map Slice.toJson)))).map Slice.ofJson }
      gantt :=
        { d.gantt with
          tasks := (items (some (.array (d.gantt.tasks.map Task.toJson)))).map Task.ofJson }
      journey :=
        { d.journey with
          steps :=
            (items (some (.array (d.journey.steps.map Step.toJson)))).map Step.ofJson } } := by
  have hk := choice_name (Kind.ofName?_name d.kind) .flowchart
  rw [← entityId_ofNat]
  conv_rhs => rw [← hk]
  rfl

theorem idLists_coerce_toJson (d : Diagram) :
    (coerce d.toJson).idLists = d.idLists.map (List.map EntityId.accept) := by
  have hn := Entity.ids_map_ofJson_toJson fun n : Node => congrArg Entity.id n.reread
  have he := Entity.ids_map_ofJson_toJson fun e : Edge => congrArg Entity.id e.reread
  have hp := Entity.ids_map_ofJson_toJson fun p : Participant => congrArg Entity.id p.ofJson_toJson
  have hm := Entity.ids_map_ofJson_toJson fun m : Message => congrArg Entity.id m.reread
  have hs := Entity.ids_map_ofJson_toJson fun s : Slice => congrArg Entity.id s.reread
  have ht := Entity.ids_map_ofJson_toJson fun t : Task => congrArg Entity.id t.ofJson_toJson
  have hj := Entity.ids_map_ofJson_toJson fun s : Step => congrArg Entity.id s.reread
  rw [coerce_toJson, idLists, idLists]
  dsimp only
  rw [hn, he, hp, hm, hs, ht, hj]
  rfl

theorem entityIds_coerce_toJson (d : Diagram) :
    (coerce d.toJson).entityIds = d.entityIds.map EntityId.accept := by
  rw [← flatten_idLists, ← flatten_idLists, idLists_coerce_toJson, List.map_flatten]

theorem counter_coerce_toJson (d : Diagram) :
    (coerce d.toJson).counter = max 1 (EntityId.accept d.counter) := by
  rw [coerce_toJson]

theorem anonymous_coerce_toJson {d : Diagram} (h : d.Storable) :
    (coerce d.toJson).anonymous = d.anonymous := by
  rw [coerce_toJson]
  unfold anonymous
  dsimp only
  rw [Entity.map_ofJson_toJson _ fun n hn => Node.ofJson_toJson (h.nodes n hn),
    Entity.map_ofJson_toJson _ fun e he => Edge.ofJson_toJson (h.edges e he),
    Entity.map_ofJson_toJson _ fun p _ => Participant.ofJson_toJson p,
    Entity.map_ofJson_toJson _ fun m hm => Message.ofJson_toJson (h.messages m hm),
    Entity.map_ofJson_toJson _ fun s hs => Slice.ofJson_toJson (h.slices s hs),
    Entity.map_ofJson_toJson _ fun t _ => Task.ofJson_toJson t,
    Entity.map_ofJson_toJson _ fun s hs => Step.ofJson_toJson (h.steps s hs)]
  simp only [Entity.anonymous_accepted]

/-- Only objects have members, and a diagram without any is the empty one. -/
theorem ofJson_eq (v : Json) : ofJson v = (coerce v).reconcile := by
  have hempty : ({} : Diagram) = (coerce .null).reconcile := by decide
  cases v with
  | object members => rfl
  | _ => exact hempty

end Diagram
end DiagramDoc
