import DiagramDoc.Dialect.Basic
import DiagramDoc.Proofs.Document.Normalize
import DiagramDoc.Proofs.Json.RoundTrip

/-!
# Diagrams from the text of their documents

The text of a document is read as the document with its numbers restored. So a valid diagram comes
back with all it holds but its numbers: these are restored, and zeros give way to defaults.
-/

namespace DiagramDoc

/-! ### Numbers that are printed -/

namespace Number

/-- A number that is read as itself from its JSON text. -/
def Survives (x : Number) : Prop := Json.read? (Json.realText x) = some (.real x)

instance (x : Number) : Decidable x.Survives := inferInstanceAs (Decidable (_ = _))

/-- What a field with a default holds of a number that was written to it. -/
def reloaded (x default : Number) : Number :=
  Lenient.numberOr default (some (.ofNumber x.restored))

variable {x : Number}

theorem Survives.isFinite (h : x.Survives) : x.isFinite = true := by
  have hnull : ∀ y, Json.read? "null".toList ≠ some (.real y) := by
    intro y
    have hread : Json.read? "null".toList = some .null := by decide
    rw [hread]
    nofun
  cases x with
  | undefined => exact absurd h (hnull _)
  | infinite negative => exact absurd h (hnull _)
  | finite negative place => rfl

theorem Survives.restored_eq (h : x.Survives) : x.restored = x := by
  have hread : Json.read? (Json.realText x) = some (.real x.restored) :=
    Json.read?_pretty (v := .real x) h.isFinite
  exact Json.real.inj (Option.some.inj (hread.symm.trans h))

theorem Survives.reloaded_eq (h : x.Survives) (default : Number) :
    x.reloaded default = if x.isZero then default else x := by
  have hx : Json.ofNumber x = .real x := if_pos h.isFinite
  unfold reloaded
  rw [h.restored_eq, hx]
  show (if x.isFinite && !x.isZero then x else default) = _
  rw [h.isFinite]
  cases x.isZero <;> rfl

end Number

namespace Json

theorem restored_ofNumber (x : Number) : (ofNumber x).restored = ofNumber x.restored := by
  unfold ofNumber
  cases hx : x.isFinite with
  | true => rw [if_pos rfl, if_pos (isFinite_restored hx), restored]
  | false =>
    have hnull : readNumber? "null".toList = none := by decide
    have hsame : x.restored = x := by
      unfold Number.restored
      cases x with
      | finite negative place => cases hx
      | undefined => simp only [realText, hnull]
      | infinite negative => simp only [realText, hnull]
    rw [hsame, hx]
    rfl

theorem fits_ofNumber (depth : Nat) (x : Number) : Fits depth (ofNumber x) := by
  unfold ofNumber
  cases hx : x.isFinite with
  | true =>
    rw [if_pos rfl, Fits]
    exact hx
  | false => trivial

theorem fits_ofNat (depth : Nat) {n : Nat} (h : n ≤ EntityId.largest) : Fits depth (ofNat n) := by
  have hlargest : EntityId.largest = 0xFFFFFFFFFFFFFFFF := rfl
  unfold ofNat
  rw [Fits]
  constructor <;> omega

theorem fits_ofNat_read (depth : Nat) {n : Nat} (h : n ≤ EntityId.largestRead) :
    Fits depth (ofNat n) := fits_ofNat depth (Nat.le_trans h (by decide))

theorem restoredItems_map {α : Type} {toJson : α → Json} {restore : α → α}
    (h : ∀ x, (toJson x).restored = toJson (restore x)) (xs : List α) :
    restoredItems (xs.map toJson) = (xs.map restore).map toJson := by
  induction xs with
  | nil => rfl
  | cons x xs ih =>
    rw [List.map_cons, restoredItems, h, ih]
    rfl

theorem restoredItems_map_self {α : Type} {toJson : α → Json}
    (h : ∀ x, (toJson x).restored = toJson x) (xs : List α) :
    restoredItems (xs.map toJson) = xs.map toJson := by
  have hid : ∀ x, (toJson x).restored = toJson (id x) := h
  rw [restoredItems_map hid, List.map_id]

theorem fitsItems_map {α : Type} {toJson : α → Json} {depth : Nat} {xs : List α}
    (h : ∀ x ∈ xs, Fits depth (toJson x)) : FitsItems depth (xs.map toJson) := by
  induction xs with
  | nil => trivial
  | cons x xs ih =>
    obtain ⟨hx, hxs⟩ := List.forall_mem_cons.mp h
    rw [List.map_cons, FitsItems]
    exact ⟨hx, ih hxs⟩

end Json

/-! ### Entities -/

theorem Entity.ids_map {α : Type} [Entity α] {f : α → α} (h : ∀ x, id (f x) = id x) (xs : List α) :
    ids (xs.map f) = ids xs := by
  unfold ids
  rw [List.map_map]
  exact List.map_congr_left fun x _ => h x

section Entities

open Json

/-- A node with its numbers as they are read from their JSON texts. -/
def Node.restored (n : Node) : Node :=
  { n with
    x := n.x.restored
    y := n.y.restored
    width := n.width.restored
    height := n.height.restored }

/-- A node as it comes back from the text of its document. -/
def Node.reloaded (n : Node) : Node :=
  { n with
    x := n.x.reloaded 0
    y := n.y.reloaded 0
    width := n.width.reloaded 160
    height := n.height.reloaded 64 }

def Slice.restored (s : Slice) : Slice := { s with value := s.value.restored }

def Slice.reloaded (s : Slice) : Slice := { s with value := s.value.reloaded 0 }

def Step.restored (s : Step) : Step := { s with score := s.score.restored }

def Step.reloaded (s : Step) : Step := { s with score := s.score.reloaded Step.defaultScore }

theorem Node.restored_toJson (n : Node) : n.toJson.restored = n.restored.toJson := by
  simp [toJson, Json.restored, restoredMembers, restored_ofNumber, ofNat, restored]

theorem Edge.restored_toJson (e : Edge) : e.toJson.restored = e.toJson := by
  simp [toJson, Json.restored, restoredMembers, ofNat]

theorem Participant.restored_toJson (p : Participant) : p.toJson.restored = p.toJson := by
  simp [toJson, Json.restored, restoredMembers, ofNat]

theorem Message.restored_toJson (m : Message) : m.toJson.restored = m.toJson := by
  simp [toJson, Json.restored, restoredMembers, ofNat]

theorem Slice.restored_toJson (s : Slice) : s.toJson.restored = s.restored.toJson := by
  simp [toJson, Json.restored, restoredMembers, restored_ofNumber, ofNat, restored]

theorem Task.restored_toJson (t : Task) : t.toJson.restored = t.toJson := by
  simp [toJson, Json.restored, restoredMembers, ofNat]

theorem Step.restored_toJson (s : Step) : s.toJson.restored = s.restored.toJson := by
  have hpersonas : restoredItems (s.personas.map .text) = s.personas.map .text :=
    restoredItems_map_self (fun _ => rfl) s.personas
  simp [toJson, Json.restored, restoredMembers, restored_ofNumber, ofNat, restored, hpersonas]

theorem Node.ofJson_restored (n : Node) : Node.ofJson n.restored.toJson =
    Entity.withId n.reloaded (EntityId.accept n.reloaded.id) := n.restored.reread

theorem Slice.ofJson_restored (s : Slice) : Slice.ofJson s.restored.toJson =
    Entity.withId s.reloaded (EntityId.accept s.reloaded.id) := s.restored.reread

theorem Step.ofJson_restored (s : Step) : Step.ofJson s.restored.toJson =
    Entity.withId s.reloaded (EntityId.accept s.reloaded.id) := s.restored.reread

variable (depth : Nat)

theorem Node.fits_toJson {n : Node} (h : n.id ≤ EntityId.largest) : Fits (depth + 1) n.toJson := by
  simp [toJson, Fits, FitsMembers, fits_ofNumber, fits_ofNat _ h]

theorem Edge.fits_toJson {e : Edge} (h : e.id ≤ EntityId.largest) (hs : e.Storable) :
    Fits (depth + 1) e.toJson := by
  simp [toJson, Fits, FitsMembers, fits_ofNat _ h, fits_ofNat_read _ hs.1, fits_ofNat_read _ hs.2]

theorem Participant.fits_toJson {p : Participant} (h : p.id ≤ EntityId.largest) :
    Fits (depth + 1) p.toJson := by
  simp [toJson, Fits, FitsMembers, fits_ofNat _ h]

theorem Message.fits_toJson {m : Message} (h : m.id ≤ EntityId.largest) (hs : m.Storable) :
    Fits (depth + 1) m.toJson := by
  simp [toJson, Fits, FitsMembers, fits_ofNat _ h, fits_ofNat_read _ hs.1, fits_ofNat_read _ hs.2]

theorem Slice.fits_toJson {s : Slice} (h : s.id ≤ EntityId.largest) :
    Fits (depth + 1) s.toJson := by
  simp [toJson, Fits, FitsMembers, fits_ofNumber, fits_ofNat _ h]

theorem Task.fits_toJson {t : Task} (h : t.id ≤ EntityId.largest) : Fits (depth + 1) t.toJson := by
  simp [toJson, Fits, FitsMembers, fits_ofNat _ h]

theorem Step.fits_toJson {s : Step} (h : s.id ≤ EntityId.largest) :
    Fits (depth + 2) s.toJson := by
  have hpersonas : FitsItems depth (s.personas.map .text) := fitsItems_map fun _ _ => trivial
  simp [toJson, Fits, FitsMembers, fits_ofNumber, fits_ofNat _ h, hpersonas]

end Entities

/-! ### Diagrams -/

namespace Diagram

open Json Lenient

/-- A diagram with its numbers as they are read from their JSON texts. -/
def restored (d : Diagram) : Diagram :=
  { d with
    flowchart := { d.flowchart with nodes := d.flowchart.nodes.map Node.restored }
    pie := { d.pie with slices := d.pie.slices.map Slice.restored }
    journey := { d.journey with steps := d.journey.steps.map Step.restored } }

/-- A diagram as it comes back from the text of its document. -/
def reloaded (d : Diagram) : Diagram :=
  { d with
    flowchart := { d.flowchart with nodes := d.flowchart.nodes.map Node.reloaded }
    pie := { d.pie with slices := d.pie.slices.map Slice.reloaded }
    journey := { d.journey with steps := d.journey.steps.map Step.reloaded } }

theorem restored_toJson (d : Diagram) : d.toJson.restored = d.restored.toJson := by
  have hnodes := restoredItems_map Node.restored_toJson d.flowchart.nodes
  have hedges := restoredItems_map_self Edge.restored_toJson d.flowchart.edges
  have hparticipants := restoredItems_map_self Participant.restored_toJson d.sequence.participants
  have hmessages := restoredItems_map_self Message.restored_toJson d.sequence.messages
  have hslices := restoredItems_map Slice.restored_toJson d.pie.slices
  have htasks := restoredItems_map_self Task.restored_toJson d.gantt.tasks
  have hsteps := restoredItems_map Step.restored_toJson d.journey.steps
  simp only [toJson, Flowchart.toJson, Sequence.toJson, Pie.toJson, Gantt.toJson, Journey.toJson,
    Json.restored, restoredMembers, hnodes, hedges, hparticipants, hmessages, hslices, htasks,
    hsteps, ofNat]
  rfl

section Fits

variable {d : Diagram} (hids : ∀ id ∈ d.entityIds, id ≤ EntityId.largest)
  (hc : d.counter ≤ EntityId.largest) (hedges : ∀ e ∈ d.flowchart.edges, e.Storable)
  (hmessages : ∀ m ∈ d.sequence.messages, m.Storable)

include hids hc hedges hmessages

theorem fits_toJson : Fits maxDepth d.toJson := by
  rw [entityIds_eq] at hids
  simp only [List.forall_mem_append, Entity.ids, List.forall_mem_map] at hids
  obtain ⟨hn, he, hp, hm, hs, ht, hj⟩ := hids
  have hversion : layoutVersion ≤ EntityId.largest := by decide
  have hnodes := fitsItems_map fun n hn' => Node.fits_toJson 123 (hn n hn')
  have hedges := fitsItems_map fun e he' => Edge.fits_toJson 123 (he e he') (hedges e he')
  have hparticipants := fitsItems_map fun p hp' => Participant.fits_toJson 123 (hp p hp')
  have hmessages := fitsItems_map fun m hm' =>
    Message.fits_toJson 123 (hm m hm') (hmessages m hm')
  have hslices := fitsItems_map fun s hs' => Slice.fits_toJson 123 (hs s hs')
  have htasks := fitsItems_map fun t ht' => Task.fits_toJson 123 (ht t ht')
  have hsteps := fitsItems_map fun s hs' => Step.fits_toJson 122 (hj s hs')
  simp [toJson, Flowchart.toJson, Sequence.toJson, Pie.toJson, Gantt.toJson, Journey.toJson, Fits,
    FitsMembers, maxDepth, fits_ofNat _ hversion, fits_ofNat _ hc, hnodes, hedges, hparticipants,
    hmessages, hslices, htasks, hsteps]

/-- The text of a document is read as the document with all numbers restored. -/
theorem read?_toDocument : Json.read? d.toDocument = some d.restored.toJson := by
  unfold toDocument
  rw [read?_pretty (fits_toJson hids hc hedges hmessages), restored_toJson]

end Fits

theorem entityIds_restored (d : Diagram) : d.restored.entityIds = d.entityIds := by
  rw [entityIds_eq, entityIds_eq]
  unfold restored
  dsimp only
  rw [Entity.ids_map (f := Node.restored) fun _ => rfl,
    Entity.ids_map (f := Slice.restored) fun _ => rfl,
    Entity.ids_map (f := Step.restored) fun _ => rfl]

theorem entityIds_reloaded (d : Diagram) : d.reloaded.entityIds = d.entityIds := by
  rw [entityIds_eq, entityIds_eq]
  unfold reloaded
  dsimp only
  rw [Entity.ids_map (f := Node.reloaded) fun _ => rfl,
    Entity.ids_map (f := Slice.reloaded) fun _ => rfl,
    Entity.ids_map (f := Step.reloaded) fun _ => rfl]

theorem anonymous_map {α : Type} [Entity α] [LawfulEntity α] {toJson : α → Json} {ofJson : Json → α}
    {restore reload : α → α} (h : ∀ x, ofJson (toJson (restore x)) =
      Entity.withId (reload x) (EntityId.accept (Entity.id (reload x)))) (xs : List α) :
    Entity.anonymous ((items (some (.array ((xs.map restore).map toJson)))).map ofJson) =
      Entity.anonymous (xs.map reload) := by
  rw [← Entity.anonymous_accepted (xs.map reload)]
  show Entity.anonymous (((xs.map restore).map toJson).map ofJson) = _
  unfold Entity.accepted
  rw [List.map_map, List.map_map, List.map_map]
  exact congrArg Entity.anonymous (List.map_congr_left fun x _ => h x)

/-- What comes back of a valid diagram differs in its numbers only. -/
theorem ofJson_restored_toJson {d : Diagram} (hv : d.Valid) (h1 : 1 ≤ d.counter)
    (hc : d.counter ≤ EntityId.largestRead) (hedges : ∀ e ∈ d.flowchart.edges, e.Storable)
    (hmessages : ∀ m ∈ d.sequence.messages, m.Storable) :
    ofJson d.restored.toJson = d.reloaded := by
  obtain ⟨-, hids, hcounter⟩ := (accepts_coerce_toJson d.restored).reconcile_of_le
    (hv.of_perm (List.Perm.of_eq d.entityIds_restored) (Nat.le_refl _)) hc
  rw [ofJson_eq]
  refine eq_of_anonymous ?_ (hids.trans (d.entityIds_restored.trans d.entityIds_reloaded.symm)) ?_
  · rw [anonymous_reconcile, coerce_toJson]
    unfold anonymous restored reloaded
    dsimp only
    rw [anonymous_map Node.ofJson_restored, anonymous_map Slice.ofJson_restored,
      anonymous_map Step.ofJson_restored,
      Entity.map_ofJson_toJson _ fun e he => Edge.ofJson_toJson (hedges e he),
      Entity.map_ofJson_toJson _ fun p _ => Participant.ofJson_toJson p,
      Entity.map_ofJson_toJson _ fun m hm => Message.ofJson_toJson (hmessages m hm),
      Entity.map_ofJson_toJson _ fun t _ => Task.ofJson_toJson t]
    simp only [Entity.anonymous_accepted]
  · rw [hcounter]
    exact Nat.max_eq_right h1

/-! ### The text of what comes back -/

theorem write_flowchart_reloaded (f : Flowchart) :
    Dialect.Flow.write { f with nodes := f.nodes.map Node.reloaded } = Dialect.Flow.write f := by
  have hids : Entity.ids (f.nodes.map Node.reloaded) = Entity.ids f.nodes :=
    Entity.ids_map (f := Node.reloaded) (fun _ => rfl) _
  have hjoins : ({ f with nodes := f.nodes.map Node.reloaded } : Flowchart).joins = f.joins := by
    funext e
    rw [Bool.eq_iff_iff, Flowchart.joins_iff, Flowchart.joins_iff, hids]
  have hedges : ({ f with nodes := f.nodes.map Node.reloaded } : Flowchart).connectedEdges =
      f.connectedEdges := congrArg (fun joins => f.edges.filter joins) hjoins
  unfold Dialect.Flow.write
  rw [hedges, List.map_map, List.map_map]
  rfl

/-- A zero may come back with another sign, which no text shows. -/
theorem sliceLine_reloaded {s : Slice} (h : s.value.Survives) :
    Dialect.Slices.sliceLine s.reloaded = Dialect.Slices.sliceLine s := by
  have hzero : (0 : Number) = .zero := Number.ofNat_zero
  have hvalue : (s.value.reloaded 0).toText = s.value.toText := by
    rw [h.reloaded_eq, hzero]
    exact s.value.toText_unsignZero
  show '"' :: (Text.escape s.label ++ "\": ".toList ++ (s.value.reloaded 0).toText) = _
  rw [hvalue]
  rfl

theorem write_pie_reloaded {p : Pie} (h : ∀ s ∈ p.slices, s.value.Survives) :
    Dialect.Slices.write { p with slices := p.slices.map Slice.reloaded } =
      Dialect.Slices.write p := by
  have hlines : p.slices.map (Dialect.Slices.sliceLine ∘ Slice.reloaded) =
      p.slices.map Dialect.Slices.sliceLine :=
    List.map_congr_left fun s hs => sliceLine_reloaded (h s hs)
  unfold Dialect.Slices.write
  rw [List.map_map, hlines]

theorem reloaded_step_eq {s : Step} (h : s.score.Survives) (hz : s.score.isZero = false) :
    s.reloaded = s := by
  have hsame : s.score.reloaded Step.defaultScore = s.score := by
    rw [h.reloaded_eq, hz]
    rfl
  unfold Step.reloaded
  rw [hsame]

/-- The numbers that the text of a diagram shows come back from its document. -/
structure ShownSurvive (d : Diagram) : Prop where
  values : d.kind = .pie → ∀ s ∈ d.pie.slices, s.value.Survives
  scores : d.kind = .journey → ∀ s ∈ d.journey.steps, s.score.Survives ∧ s.score.isZero = false

instance (d : Diagram) : Decidable d.ShownSurvive :=
  decidable_of_iff
    ((d.kind = .pie → ∀ s ∈ d.pie.slices, s.value.Survives) ∧
      (d.kind = .journey → ∀ s ∈ d.journey.steps, s.score.Survives ∧ s.score.isZero = false))
    ⟨fun h => ⟨h.1, h.2⟩, fun h => ⟨h.values, h.scores⟩⟩

/-- A diagram that comes back is shown as before: no text shows places and sizes. -/
theorem writeText_reloaded {d : Diagram} (h : d.ShownSurvive) :
    d.reloaded.writeText = d.writeText := by
  unfold writeText
  have hkind : d.reloaded.kind = d.kind := rfl
  rw [hkind]
  cases hk : d.kind with
  | flowchart => exact write_flowchart_reloaded d.flowchart
  | sequence => rfl
  | pie => exact write_pie_reloaded (h.values hk)
  | gantt => rfl
  | journey =>
    have hsteps : d.journey.steps.map Step.reloaded = d.journey.steps := by
      refine (List.map_congr_left fun s hs => ?_).trans (List.map_id _)
      exact reloaded_step_eq (h.scores hk s hs).1 (h.scores hk s hs).2
    show Dialect.Steps.write { d.journey with steps := d.journey.steps.map Step.reloaded } = _
    rw [hsteps]

end Diagram

end DiagramDoc
