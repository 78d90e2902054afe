import DiagramDoc.Proofs.Dialect.Reading

/-!
# Reading a text into any diagram

The first content line chooses a chart. Reading replaces this chart, leaves the other four as
reconciling leaves them, and ends with a valid diagram, whatever identifiers the text asks for and
whatever the diagram was before.
-/

namespace DiagramDoc.Diagram

open Dialect Scope

theorem Valid.agreesExcept_reconcile {d : Diagram} (h : d.Valid) (kind : Kind) :
    AgreesExcept kind d.reconcile d := by
  rw [h.reconcile_eq]
  exact ⟨fun _ => rfl, fun _ => rfl, fun _ => rfl, fun _ => rfl, fun _ => rfl⟩

section Chart

variable (d : Diagram) (grammar : Grammar) (header : Text) (rest : List Text) (scope : Scope)

theorem accounts_readChart :
    Accounts scope [] (d.readChart grammar header rest scope).2
      ((d.readChart grammar header rest scope).1.idsOf grammar.kind) := by
  cases grammar with
  | bare => exact Flow.accounts_read _ _ _
  | headed kind =>
    cases kind with
    | flowchart => exact Flow.accounts_read _ _ _
    | sequence => exact Seq.accounts_read _ _
    | pie => exact Slices.accounts_read (header :: rest) scope
    | gantt => exact Tasks.accounts_read _ _
    | journey => exact Steps.accounts_read _ _

theorem agreesExcept_readChart :
    AgreesExcept grammar.kind (d.readChart grammar header rest scope).1 d := by
  cases grammar with
  | bare => exact ⟨fun h => absurd rfl h, fun _ => rfl, fun _ => rfl, fun _ => rfl, fun _ => rfl⟩
  | headed kind =>
    cases kind with
    | flowchart =>
      exact ⟨fun h => absurd rfl h, fun _ => rfl, fun _ => rfl, fun _ => rfl, fun _ => rfl⟩
    | sequence =>
      exact ⟨fun _ => rfl, fun h => absurd rfl h, fun _ => rfl, fun _ => rfl, fun _ => rfl⟩
    | pie =>
      exact ⟨fun _ => rfl, fun _ => rfl, fun h => absurd rfl h, fun _ => rfl, fun _ => rfl⟩
    | gantt =>
      exact ⟨fun _ => rfl, fun _ => rfl, fun _ => rfl, fun h => absurd rfl h, fun _ => rfl⟩
    | journey =>
      exact ⟨fun _ => rfl, fun _ => rfl, fun _ => rfl, fun _ => rfl, fun h => absurd rfl h⟩

end Chart

/-- The scope in which a text is read into a diagram. -/
def scopeFor (previous : Diagram) (kind : Kind) : Scope :=
  { Scope.ofDiagram previous.reconcile kind with log := previous.reconcileWithLog.2 }

/-- What the lines of a text make of a diagram, the kind and the counter apart. -/
def chartRead (previous : Diagram) (header : Text) (rest : List Text) : Diagram × Scope :=
  previous.reconcile.readChart (Grammar.ofHeader header) header rest
    (scopeFor previous (Grammar.ofHeader header).kind)

theorem readTextInScope_cons {text header : Text} {rest : List Text}
    (hl : contentLines text = header :: rest) (previous : Diagram) :
    readTextInScope text previous =
      .ok (refresh
        { (chartRead previous header rest).1 with
          kind := (Grammar.ofHeader header).kind
          counter := (chartRead previous header rest).2.next },
        (chartRead previous header rest).2) := by
  unfold readTextInScope
  rw [hl]
  rfl

/-- A text with content is read, and the first line of it chooses the kind. -/
theorem readText_cons {text header : Text} {rest : List Text}
    (hl : contentLines text = header :: rest) (previous : Diagram) :
    ∃ counter, readText text previous =
      .ok { (chartRead previous header rest).1 with
            kind := (Grammar.ofHeader header).kind, counter } := by
  unfold readText
  rw [readTextInScope_cons hl]
  exact ⟨_, rfl⟩

/-- A header that is no bare statement chooses the grammar of its kind. -/
theorem readText_headed {text header : Text} {rest : List Text} {kind : Kind}
    (hl : contentLines text = header :: rest) (hh : Grammar.ofHeader header = .headed kind)
    (previous : Diagram) :
    ∃ counter, readText text previous =
      .ok { (previous.reconcile.readChart (.headed kind) header rest (scopeFor previous kind)).1 with
            kind, counter } := by
  have hread := readText_cons hl previous
  unfold chartRead at hread
  rwa [hh] at hread

theorem readText_eq_ok {text : Text} {previous d : Diagram}
    (h : readText text previous = .ok d) :
    ∃ header rest, contentLines text = header :: rest ∧
      d = refresh
        { (chartRead previous header rest).1 with
          kind := (Grammar.ofHeader header).kind
          counter := (chartRead previous header rest).2.next } := by
  unfold readText at h
  cases hl : contentLines text with
  | nil => simp [readTextInScope, hl, Except.map] at h
  | cons header rest =>
    rw [readTextInScope_cons hl] at h
    exact ⟨header, rest, rfl, (Except.ok.inj h).symm⟩

theorem exists_readText {source : Text} {previous : Diagram} {p : Diagram → Bool}
    (h : (readText source previous).toOption.any p = true) :
    ∃ d, readText source previous = .ok d ∧ p d = true := by
  cases hr : readText source previous with
  | error _ => simp [hr, Except.toOption] at h
  | ok d => exact ⟨d, rfl, by simpa [hr, Except.toOption] using h⟩

/-- The entities of a chart keep their identifiers when it is read into its own diagram: no entity of
another kind has them. -/
theorem Valid.free {d : Diagram} (hv : d.Valid) (hc : d.counter ≤ 0x20000000000000) {kind : Kind}
    {ids : List Nat} (hs : ids.Sublist (d.idsOf kind)) :
    ids.Nodup ∧ ∀ id ∈ ids, EntityId.InRange id ∧ id ∉ (scopeFor d kind).reserved := by
  have hnodup : (d.idsOf kind ++ d.idsExcept kind).Nodup :=
    (d.entityIds_perm kind).nodup_iff.mp hv.distinct
  obtain ⟨hof, -, hdisjoint⟩ := List.nodup_append.mp hnodup
  have hres : (scopeFor d kind).reserved = d.idsExcept kind :=
    (hv.agreesExcept_reconcile kind).idsExcept_eq
  have hmax : EntityId.largestRead = 0x1FFFFFFFFFFFFF := rfl
  refine ⟨hs.nodup hof, fun id hid => ?_⟩
  have hmem : id ∈ d.idsOf kind := hs.subset hid
  have hall : id ∈ d.entityIds := (d.mem_entityIds kind).mpr (.inl hmem)
  have hpos : id ≠ 0 := hv.present id hall
  have hlt := hv.below id hall
  constructor
  · constructor <;> omega
  · rw [hres]
    exact fun hr => hdisjoint id hmem id hr rfl

/-- What a text that was read says of the outcome, before anything is assumed of the counter. -/
structure ReadFrom (previous : Diagram) (kind : Kind) (d : Diagram) (scope : Scope) : Prop where
  kind_eq : d.kind = kind
  agrees : AgreesExcept kind d previous.reconcile
  counter_eq : d.counter = max scope.next (EntityId.successor d.maxId)
  accounts : Accounts (scopeFor previous kind) [] scope (d.idsOf kind)

theorem readTextInScope_eq_ok {text : Text} {previous d : Diagram} {scope : Scope}
    (h : readTextInScope text previous = .ok (d, scope)) :
    ∃ header rest, contentLines text = header :: rest ∧
      ReadFrom previous (Grammar.ofHeader header).kind d scope := by
  cases hl : contentLines text with
  | nil => simp [readTextInScope, hl] at h
  | cons header rest =>
    rw [readTextInScope_cons hl] at h
    cases h
    have ha := agreesExcept_readChart previous.reconcile (Grammar.ofHeader header) header rest
      (scopeFor previous (Grammar.ofHeader header).kind)
    have hr := accounts_readChart previous.reconcile (Grammar.ofHeader header) header rest
      (scopeFor previous (Grammar.ofHeader header).kind)
    -- The kind and the counter, which are set last, are in no chart.
    have hi : ∀ (k : Kind) (e : Diagram) (kind : Kind) (counter : Nat),
        ({ e with kind, counter : Diagram }.refresh).idsOf k = e.idsOf k := by
      intro k e kind counter
      cases k <;> rfl
    refine ⟨header, rest, rfl, rfl, ?_, rfl, ?_⟩
    · exact ⟨ha.flowchart, ha.sequence, ha.pie, ha.gantt, ha.journey⟩
    · rw [hi]
      exact hr

theorem sound_scopeFor {previous : Diagram} (h : previous.reconcile.Valid)
    (hn : previous.reconcile.nextId < EntityId.largest) (kind : Kind) :
    Sound previous.reconcile.nextId (scopeFor previous kind) := by
  have hsub : ∀ id ∈ previous.reconcile.idsExcept kind, id ∈ previous.reconcile.entityIds :=
    fun id hid => (previous.reconcile.mem_entityIds kind).mpr (.inr hid)
  have hd := (previous.reconcile.entityIds_perm kind).nodup_iff.mp h.distinct
  exact {
    start_pos := previous.reconcile.nextId_pos
    start_le := Nat.le_refl _
    present := fun id hid => h.present id (hsub id hid)
    distinct := (List.nodup_append.mp hd).2.1
    below := fun id hid => lt_nextId (hsub id hid) hn
    drawn_sublist := List.Sublist.refl _
    start_le_drawn := fun id hid => nomatch hid }

section ReadFrom

variable {previous d : Diagram} {kind : Kind} {scope : Scope} (h : ReadFrom previous kind d scope)

include h

/-- All identifiers of the outcome are those claimed by the text or reserved for other kinds. -/
theorem ReadFrom.entityIds_perm : d.entityIds.Perm (scope.claimed ++ scope.reserved) := by
  obtain ⟨ids, hg, hp⟩ := h.accounts
  have hclaimed : scope.claimed = ids := by rw [hg.claimed]; exact List.append_nil ids
  have hreserved : scope.reserved = d.idsExcept kind := by
    rw [hg.reserved, h.agrees.idsExcept_eq]
    rfl
  rw [hclaimed, hreserved]
  refine (d.entityIds_perm kind).trans (List.Perm.append_right _ ?_)
  simpa only [List.append_nil] using hp

theorem ReadFrom.sound_scope (hnext : scope.next < EntityId.largest) :
    Sound previous.reconcile.nextId scope ∧ previous.nextId ≤ previous.reconcile.nextId := by
  obtain ⟨ids, hg, -⟩ := h.accounts
  have hbase : previous.reconcile.nextId ≤ scope.next := hg.grows hnext
  have hle := counter_le_nextId previous.reconcile
  obtain ⟨hv, hprev⟩ := reconcile_sound (d := previous) (by omega)
  exact ⟨hg.sound hnext _ (sound_scopeFor hv (by omega) kind), by omega⟩

/-- The last refresh finds nothing above the next fresh identifier. -/
theorem ReadFrom.counter_eq_next (hnext : scope.next < EntityId.largest) :
    d.counter = scope.next := by
  obtain ⟨hs, -⟩ := h.sound_scope hnext
  have hpos : 0 < scope.next := Nat.lt_of_lt_of_le hs.start_pos hs.start_le
  exact h.counter_eq.trans
    (max_successor_maxId hpos fun id hid => hs.below id (h.entityIds_perm.mem_iff.mp hid))

theorem ReadFrom.sound (hc : d.counter < EntityId.largest) :
    d.Valid ∧ previous.nextId ≤ d.counter ∧
      (∀ id ∈ scope.drawn, previous.nextId ≤ id ∧ id < d.counter) ∧ scope.drawn.Nodup := by
  have hcounter := h.counter_eq
  have hnext : scope.next < EntityId.largest := by omega
  have heq := h.counter_eq_next hnext
  have hperm := h.entityIds_perm
  obtain ⟨hs, hbase⟩ := h.sound_scope hnext
  have hstart := hs.start_le
  refine ⟨⟨?_, ?_, ?_⟩, by omega, ?_, hs.drawn_sublist.nodup (List.nodup_append.mp hs.distinct).1⟩
  · exact fun id hid => hs.present id (hperm.mem_iff.mp hid)
  · exact hperm.nodup_iff.mpr hs.distinct
  · exact fun id hid => heq ▸ hs.below id (hperm.mem_iff.mp hid)
  · intro id hid
    have hge := hs.start_le_drawn id hid
    have hlt := hs.below id (List.mem_append_left _ (hs.drawn_sublist.subset hid))
    omega

end ReadFrom

section ReadText

variable {text : Text} {previous d : Diagram} (h : readText text previous = .ok d)

include h

theorem readFrom_chartRead :
    ∃ header rest, contentLines text = header :: rest ∧
      ReadFrom previous (Grammar.ofHeader header).kind d (chartRead previous header rest).2 := by
  obtain ⟨header, rest, hl, hd⟩ := readText_eq_ok h
  have hscope := readTextInScope_cons hl previous
  rw [← hd] at hscope
  obtain ⟨_, _, hl', hf⟩ := readTextInScope_eq_ok hscope
  cases hl.symm.trans hl'
  exact ⟨header, rest, hl, hf⟩

theorem readFrom_readText :
    ∃ header rest scope, contentLines text = header :: rest ∧
      ReadFrom previous (Grammar.ofHeader header).kind d scope := by
  obtain ⟨header, rest, hl, hf⟩ := readFrom_chartRead h
  exact ⟨header, rest, _, hl, hf⟩

/-- Identifiers are in order after reading, and the counter has not gone back. -/
theorem valid_readText (hc : d.counter < EntityId.largest) :
    d.Valid ∧ previous.nextId ≤ d.counter := by
  obtain ⟨_, _, _, -, hf⟩ := readFrom_readText h
  obtain ⟨hv, hn, -⟩ := hf.sound hc
  exact ⟨hv, hn⟩

theorem agreesExcept_reconcile_readText : AgreesExcept d.kind d previous.reconcile := by
  obtain ⟨_, _, _, -, hf⟩ := readFrom_readText h
  rw [hf.kind_eq]
  exact hf.agrees

/-- The charts of other kinds are as they were. -/
theorem agreesExcept_readText (hp : previous.Valid) : AgreesExcept d.kind d previous :=
  (agreesExcept_reconcile_readText h).trans (hp.agreesExcept_reconcile _)

end ReadText

/-- Reading shows the chart that the first content line chooses, leaves the other four alone, and
ends with distinct identifiers below a counter that has not gone back. -/
theorem readText_sound {text : Text} {previous d : Diagram}
    (h : readText text previous = .ok d) (hc : d.counter < EntityId.largest) :
    (∃ header rest, contentLines text = header :: rest ∧
      d.kind = (Grammar.ofHeader header).kind) ∧
    AgreesExcept d.kind d previous.reconcile ∧
    (previous.Valid → AgreesExcept d.kind d previous) ∧
    d.Valid ∧ previous.nextId ≤ d.counter := by
  obtain ⟨header, rest, _, hl, hf⟩ := readFrom_readText h
  obtain ⟨hv, hn⟩ := valid_readText h hc
  exact ⟨⟨header, rest, hl, hf.kind_eq⟩, agreesExcept_reconcile_readText h,
    agreesExcept_readText h, hv, hn⟩

/-- One node has no identifier, and two participants share theirs. -/
def crowded : Diagram where
  flowchart := { nodes := [{ id := 0, label := "Lost".toList }] }
  sequence := { participants := [⟨7, "User".toList⟩, ⟨7, "System".toList⟩] }

def crowdedRead : Diagram where
  counter := 15
  flowchart :=
    { nodes :=
        [{ id := 10, label := "N7".toList, x := 180, y := 140 },
         { id := 3, label := "N3".toList, x := 400, y := 140 },
         { id := 12, label := "N03".toList, x := 620, y := 140 },
         { id := 13, label := "N10".toList, x := 840, y := 140 }]
      edges := [{ id := 11, source := 10, target := 3 }, { id := 14, source := 12, target := 13 }] }
  sequence := { participants := [⟨7, "User".toList⟩, ⟨9, "System".toList⟩] }

/-- Asks for identifiers in use, and for one identifier under two names. -/
def crowdedText : Text := "graph LR\nN7 --> N3\nN03 --> N10".toList

theorem readText_sound_crowded :
    (readText crowdedText crowded = .ok crowdedRead ∧
      AgreesExcept .flowchart crowdedRead crowded.reconcile ∧ crowdedRead.Valid) ∧
    readText "pie".toList crowdedRead = .ok { crowdedRead with kind := .pie } ∧
      AgreesExcept .pie { crowdedRead with kind := .pie } crowdedRead := by
  have h : readText crowdedText crowded = .ok crowdedRead := by decide +kernel
  have h' : readText "pie".toList crowdedRead = .ok { crowdedRead with kind := .pie } := by
    decide +kernel
  obtain ⟨-, ha, -, hv, -⟩ := readText_sound h (by decide)
  obtain ⟨-, -, ha', -, -⟩ := readText_sound h' (by decide)
  exact ⟨⟨h, ha, hv⟩, h', ha' hv⟩

end DiagramDoc.Diagram
