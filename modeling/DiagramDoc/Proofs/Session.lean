import DiagramDoc.Proofs.Dialect.ReadText
import DiagramDoc.Proofs.Document.Normalize
import DiagramDoc.Proofs.Edit.Identifiers

/-!
# Sessions

A session begins with a new diagram or with one that was read from a document, and goes on with any
actions in any order. As long as the counter stays within the identifiers that are read, every state
of it is valid, the counter never goes back, and no identifier that is drawn was ever seen before.
-/

namespace DiagramDoc.Session

open Dialect

/-- What can be done with a diagram; `store` writes its document and reads it back. -/
inductive Action where
  | read (text : Text)
  | edit (edits : List Edit)
  | present (kind : Kind)
  | reconcile
  | store
  | refresh
  | allocate
deriving DecidableEq

/-- A state of a session, with the identifiers that were drawn to come to it. -/
structure Visit where
  diagram : Diagram
  drawn : List Nat := []
deriving DecidableEq

/-- The state that an action leads to; a text or a batch may be refused. -/
def perform (d : Diagram) : Action → Option Visit
  | .read text =>
    match d.readTextInScope text with
    | .ok (e, scope) => some ⟨e, scope.drawn⟩
    | .error _ => none
  | .edit edits =>
    match d.applyEdits edits with
    | .ok outcome => some ⟨outcome.diagram, Edited.drawn { diagram := d } edits⟩
    | .error _ => none
  | .present kind => some ⟨{ d with kind }, []⟩
  | .reconcile => some ⟨d.reconcile, []⟩
  | .store => some ⟨Diagram.ofJson d.toJson, []⟩
  | .refresh => some ⟨d.refresh, []⟩
  | .allocate => some ⟨d.allocate.2, [d.allocate.1]⟩

def run (d : Diagram) : List Action → Option (List Visit)
  | [] => some []
  | action :: actions =>
    (perform d action).bind fun visit => (run visit.diagram actions).map (visit :: ·)

inductive Start : Diagram → Prop where
  | empty : Start {}
  | starter : Start Diagram.starter
  | document (v : Json) : Start (Diagram.ofJson v)

/-- A valid state, and identifiers drawn at or after the counter of the state before it. -/
structure Sound (counter : Nat) (v : Visit) : Prop where
  valid : v.diagram.Valid
  grows : counter ≤ v.diagram.counter
  drawn : ∀ id ∈ v.drawn, counter ≤ id ∧ id < v.diagram.counter
  distinct : v.drawn.Nodup

theorem Sound.undrawn {d e : Diagram} (hv : e.Valid) (h : d.counter ≤ e.counter) :
    Sound d.counter ⟨e, []⟩ :=
  ⟨hv, h, (fun _ hid => nomatch hid), List.nodup_nil⟩

theorem Sound.mono {m n : Nat} {v : Visit} (h : Sound n v) (hmn : m ≤ n) : Sound m v where
  valid := h.valid
  grows := Nat.le_trans hmn h.grows
  drawn id hid := ⟨Nat.le_trans hmn (h.drawn id hid).1, (h.drawn id hid).2⟩
  distinct := h.distinct

theorem sound_refresh {d : Diagram} (hv : d.Valid) : Sound d.counter ⟨d.refresh, []⟩ := by
  have hn := d.counter_le_nextId
  exact Sound.undrawn (hv.of_perm (List.Perm.refl _) hn) hn

theorem sound_read {d : Diagram} {text : Text} {e : Diagram} {scope : Scope}
    (h : d.readTextInScope text = .ok (e, scope)) (hl : e.counter < EntityId.largest) :
    Sound d.counter ⟨e, scope.drawn⟩ := by
  obtain ⟨_, _, -, hf⟩ := Diagram.readTextInScope_eq_ok h
  obtain ⟨hv, hn, hdrawn, hnodup⟩ := hf.sound hl
  have hc := d.counter_le_nextId
  refine ⟨hv, Nat.le_trans hc hn, ?_, hnodup⟩
  intro id hid
  have hb := hdrawn id hid
  exact ⟨Nat.le_trans hc hb.1, hb.2⟩

theorem sound_edit {d : Diagram} {edits : List Edit} {outcome : BatchOutcome}
    (h : d.applyEdits edits = .ok outcome) (hv : d.Valid)
    (hl : outcome.diagram.counter < EntityId.largest) :
    Sound d.counter ⟨outcome.diagram, Edited.drawn { diagram := d } edits⟩ := by
  obtain ⟨e, he, rfl⟩ := Diagram.applyEdits_eq_ok h
  obtain ⟨hev, hdrawn, hnodup⟩ := Edited.applyAll_sound he hv hl
  exact ⟨hev, Edited.applyAll_grows he hl, hdrawn, hnodup⟩

theorem sound_store {d : Diagram} (hv : d.Valid) (hd : d.counter ≤ EntityId.largestRead) :
    Sound d.counter ⟨Diagram.ofJson d.toJson, []⟩ := by
  have ha := Diagram.accepts_coerce_toJson d
  obtain ⟨hv', -, hc⟩ := ha.reconcile_of_le hv hd
  rw [Diagram.ofJson_eq]
  exact Sound.undrawn hv' (by omega)

theorem sound_allocate {d : Diagram} (hv : d.Valid)
    (hl : d.allocate.2.counter < EntityId.largest) :
    Sound d.counter ⟨d.allocate.2, [d.allocate.1]⟩ := by
  have hc : d.allocate.2.counter = EntityId.successor d.nextId := rfl
  have hs := EntityId.successor_eq_of_lt (hc ▸ hl)
  have hn := d.counter_le_nextId
  have hle : d.counter ≤ d.allocate.2.counter := by omega
  refine ⟨hv.of_perm (List.Perm.refl _) hle, hle, ?_,
    List.nodup_cons.mpr ⟨List.not_mem_nil, List.nodup_nil⟩⟩
  intro id hid
  have he : id = d.nextId := List.mem_singleton.mp hid
  show d.counter ≤ id ∧ id < d.allocate.2.counter
  omega

theorem largestRead_lt_largest : EntityId.largestRead < EntityId.largest := by decide

theorem sound_perform {d : Diagram} {action : Action} {v : Visit}
    (h : perform d action = some v) (hv : d.Valid) (hd : d.counter ≤ EntityId.largestRead)
    (hc : v.diagram.counter ≤ EntityId.largestRead) : Sound d.counter v := by
  have hl := Nat.lt_of_le_of_lt hc largestRead_lt_largest
  cases action with
  | read text =>
    cases hr : d.readTextInScope text with
    | error e => simp [perform, hr] at h
    | ok outcome =>
      obtain ⟨e, scope⟩ := outcome
      simp only [perform, hr, Option.some.injEq] at h
      subst h
      exact sound_read hr hl
  | edit edits =>
    cases hr : d.applyEdits edits with
    | error e => simp [perform, hr] at h
    | ok outcome =>
      simp only [perform, hr, Option.some.injEq] at h
      subst h
      exact sound_edit hr hv hl
  | present kind =>
    cases h
    exact Sound.undrawn (hv.of_perm (List.Perm.refl _) (Nat.le_refl _)) (Nat.le_refl _)
  | reconcile =>
    cases h
    rw [hv.reconcile_eq]
    exact sound_refresh hv
  | store =>
    cases h
    exact sound_store hv hd
  | refresh =>
    cases h
    exact sound_refresh hv
  | allocate =>
    cases h
    exact sound_allocate hv hl

/-- A later state has a counter that is not lower, and what was drawn for it is neither in the
earlier state nor was it drawn for that one. -/
structure Follows (earlier later : Visit) : Prop where
  grows : earlier.diagram.counter ≤ later.diagram.counter
  unused : ∀ id ∈ later.drawn, id ∉ earlier.diagram.entityIds ∧ id ∉ earlier.drawn

theorem Sound.follows {m : Nat} {v w : Visit} (hv : Sound m v)
    (hw : Sound v.diagram.counter w) : Follows v w where
  grows := hw.grows
  unused id hid := by
    have hge := (hw.drawn id hid).1
    constructor
    · intro hm
      have hlt := hv.valid.below id hm
      omega
    · intro hm
      have hlt := (hv.drawn id hm).2
      omega

theorem sound_run {actions : List Action} {d : Diagram} {visits : List Visit}
    (h : run d actions = some visits) (hv : d.Valid) (hd : d.counter ≤ EntityId.largestRead)
    (hc : ∀ v ∈ visits, v.diagram.counter ≤ EntityId.largestRead) :
    (∀ v ∈ visits, Sound d.counter v) ∧ visits.Pairwise Follows := by
  induction actions generalizing d visits with
  | nil =>
    cases h
    exact ⟨(fun _ hm => nomatch hm), List.Pairwise.nil⟩
  | cons action actions ih =>
    obtain ⟨v, hp, hr⟩ := Option.bind_eq_some_iff.mp h
    obtain ⟨rest, hrest, rfl⟩ := Option.map_eq_some_iff.mp hr
    obtain ⟨hcv, hc⟩ := List.forall_mem_cons.mp hc
    have hs := sound_perform hp hv hd hcv
    -- What is drawn later is not below the counter of this state, and all it holds is.
    obtain ⟨hsound, hpair⟩ := ih hrest hs.valid hcv hc
    constructor
    · exact List.forall_mem_cons.mpr ⟨hs, fun w hw => (hsound w hw).mono hs.grows⟩
    · exact List.pairwise_cons.mpr ⟨fun w hw => hs.follows (hsound w hw), hpair⟩

theorem Start.valid {d : Diagram} (h : Start d) (hd : d.counter ≤ EntityId.largestRead) :
    d.Valid := by
  cases h with
  | empty => exact ⟨by decide, by decide, by decide⟩
  | starter => exact ⟨by decide, by decide, by decide⟩
  | document v =>
    rw [Diagram.ofJson_eq] at hd ⊢
    exact (Diagram.reconcile_sound (Nat.lt_of_le_of_lt hd largestRead_lt_largest)).1

/-- In a session every state is valid, the counter never goes back, and an identifier that is drawn
differs from all that were in use or drawn before, those of dropped entities included. -/
theorem run_sound {start : Diagram} {actions : List Action} {visits : List Visit}
    (hs : Start start) (h : run start actions = some visits)
    (hc : ∀ v ∈ ⟨start, []⟩ :: visits, v.diagram.counter ≤ EntityId.largestRead) :
    (∀ v ∈ ⟨start, []⟩ :: visits, v.diagram.Valid ∧ v.drawn.Nodup) ∧
      (⟨start, []⟩ :: visits).Pairwise Follows := by
  obtain ⟨hd, hc⟩ := List.forall_mem_cons.mp hc
  have hv := hs.valid hd
  have hstart : Sound start.counter ⟨start, []⟩ := Sound.undrawn hv (Nat.le_refl _)
  obtain ⟨hsound, hpair⟩ := sound_run h hv hd hc
  constructor
  · refine List.forall_mem_cons.mpr ⟨⟨hv, List.nodup_nil⟩, fun v hm => ?_⟩
    exact ⟨(hsound v hm).valid, (hsound v hm).distinct⟩
  · exact List.pairwise_cons.mpr ⟨fun v hm => hstart.follows (hsound v hm), hpair⟩

/-- A node is added and dropped, a text asks for identifiers, and the document is read back. -/
def busyActions : List Action :=
  [.edit [.flowchart (.addNode none .process 0 0), .flowchart (.removeNodes [112])],
   .read "graph TD\nN112 --> N3\nN200 --> User".toList,
   .store, .allocate, .present .pie, .edit [.pie (.addSlice none 1), .setKind .gantt],
   .refresh, .reconcile]

def busyVisits : List Visit := (run Diagram.starter busyActions).getD []

theorem run_sound_busy :
    run Diagram.starter busyActions = some busyVisits ∧
      busyVisits.map (·.drawn) = [[112], [202, 201, 113], [], [203], [], [204], [], []] ∧
      (∀ v ∈ ⟨Diagram.starter, []⟩ :: busyVisits, v.diagram.Valid ∧ v.drawn.Nodup) ∧
      (⟨Diagram.starter, []⟩ :: busyVisits).Pairwise Follows := by
  have h : run Diagram.starter busyActions = some busyVisits := by decide +kernel
  have hc : ∀ v ∈ ⟨Diagram.starter, []⟩ :: busyVisits,
      v.diagram.counter ≤ EntityId.largestRead := by decide +kernel
  obtain ⟨hvalid, hpair⟩ := run_sound .starter h hc
  exact ⟨h, by decide +kernel, hvalid, hpair⟩

end DiagramDoc.Session
