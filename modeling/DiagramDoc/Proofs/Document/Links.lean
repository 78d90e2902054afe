import DiagramDoc.Proofs.Dialect.FreshRow
import DiagramDoc.Proofs.Dialect.Linked
import DiagramDoc.Proofs.Document.Normalize

/-!
# What a document keeps of a text

A text may ask for the largest identifier that is read, and fresh identifiers go on behind it. In a
document those are missing. They are given again in the order of the entities, which is the order in
which they were handed out if they were handed out in a row; references to them are lost.
-/

namespace DiagramDoc

namespace Claims

/-- Identifiers that are not read are given again if they go on in a row from the next fresh one. -/
theorem settle_resume {met ids : List Nat} {next k : Nat}
    (hp : ∀ id ∈ ids, id ≠ EntityId.missing) (hd : ids.Nodup) (hm : ∀ id ∈ ids, id ∉ met)
    (hrow : ids.filter (fun id => decide (EntityId.largestRead < id)) =
      List.iterate EntityId.successor next k) :
    (settle met next (ids.map EntityId.accept)).1 = ids := by
  induction ids generalizing met next k with
  | nil => rfl
  | cons id ids ih =>
    obtain ⟨hpi, hp⟩ := List.forall_mem_cons.mp hp
    obtain ⟨hmi, hm⟩ := List.forall_mem_cons.mp hm
    obtain ⟨hdi, hd⟩ := List.nodup_cons.mp hd
    have hmet : ∀ i ∈ ids, i ∉ id :: met := fun i hi =>
      List.not_mem_cons_of_ne_of_not_mem (fun he => hdi (he ▸ hi)) (hm i hi)
    rw [List.map_cons]
    by_cases h : EntityId.largestRead < id
    · rw [List.filter_cons, if_pos (decide_eq_true h)] at hrow
      cases k with
      | zero => cases hrow
      | succ k =>
        obtain ⟨rfl, hrow⟩ := List.cons.inj hrow
        rw [EntityId.accept_of_lt h, settle_cons_fresh (.inl rfl), ih hp hd hmet hrow]
    · rw [List.filter_cons_of_neg (by simpa using h)] at hrow
      rw [EntityId.accept_of_le (Nat.le_of_not_lt h),
        settle_cons_kept (by rintro (he | he); exacts [hpi he, hmi he]), ih hp hd hmet hrow]

end Claims

theorem filter_range' {start m : Nat} (h : start ≤ m + 1) (k : Nat) :
    (List.range' start k).filter (fun i => decide (m < i)) =
      List.range' (m + 1) (start + k - (m + 1)) := by
  induction k generalizing start with
  | zero =>
    have hz : start + 0 - (m + 1) = 0 := by omega
    rw [hz]
    rfl
  | succ k ih =>
    rw [List.range'_succ]
    by_cases hs : m < start
    · obtain rfl : start = m + 1 := by omega
      have hall : (List.range' (m + 1 + 1) k).filter (fun i => decide (m < i)) =
          List.range' (m + 1 + 1) k := by
        refine List.filter_eq_self.mpr fun i hi => decide_eq_true ?_
        have hb := (List.mem_range'_1.mp hi).1
        omega
      have hk : m + 1 + (k + 1) - (m + 1) = k + 1 := by omega
      rw [List.filter_cons, if_pos (decide_eq_true hs), hall, hk, List.range'_succ]
    · have hk : start + (k + 1) - (m + 1) = start + 1 + k - (m + 1) := by omega
      rw [List.filter_cons_of_neg (by simpa using hs), ih (by omega), hk]

namespace Diagram

open Claims Dialect

/-! ### Identifiers -/

/-- Identifiers that can all be read are found again. -/
theorem entityIds_ofJson_toJson {d : Diagram} (hv : d.Valid)
    (h : ∀ id ∈ d.entityIds, id ≤ EntityId.largestRead) :
    (ofJson d.toJson).entityIds = d.entityIds := by
  have hids : d.entityIds.map EntityId.accept = d.entityIds :=
    (List.map_congr_left fun id hid => EntityId.accept_of_le (h id hid)).trans (List.map_id _)
  rw [ofJson_eq, entityIds_reconcile, entityIds_coerce_toJson, hids,
    settle_eq_self hv.present hv.distinct fun _ _ => List.not_mem_nil]

theorem filter_entityIds {d : Diagram} (kind : Kind) {p : Nat → Bool}
    (h : ∀ id ∈ d.idsExcept kind, p id = false) :
    d.entityIds.filter p = (d.idsOf kind).filter p := by
  have hnil : ∀ other ≠ kind, (d.idsOf other).filter p = [] := by
    intro other hne
    refine List.filter_eq_nil_iff.mpr fun id hid => ?_
    rw [h id, Bool.false_eq_true]
    · exact not_false
    · refine List.mem_flatMap.mpr ⟨other, List.mem_filter.mpr ⟨?_, decide_eq_true hne⟩, hid⟩
      cases other <;> decide
  cases kind <;>
    simp [entityIds, Kind.all, List.filter_append, hnil .flowchart, hnil .sequence, hnil .pie,
      hnil .gantt, hnil .journey]

/-- Identifiers in a row, which begins before the first that is not read, are found again. -/
theorem entityIds_ofJson_toJson_row {d : Diagram} {kind : Kind} {start k : Nat} (hv : d.Valid)
    (hrow : d.idsOf kind = List.range' start k) (hcounter : d.counter = start + k)
    (hothers : ∀ id ∈ d.idsExcept kind, id ≤ EntityId.largestRead)
    (hstart : start ≤ EntityId.largestRead) (hlast : EntityId.largestRead < d.counter)
    (hend : d.counter < EntityId.largest) : (ofJson d.toJson).entityIds = d.entityIds := by
  have hu : unread = EntityId.largestRead + 1 := rfl
  have hmem : EntityId.largestRead ∈ d.entityIds := by
    refine (d.mem_entityIds kind).mpr (.inl ?_)
    rw [hrow]
    exact List.mem_range'_1.mpr ⟨hstart, by omega⟩
  have hlarge : d.entityIds.filter (fun id => decide (EntityId.largestRead < id)) =
      List.iterate EntityId.successor unread (start + k - unread) := by
    have hfilter := filter_entityIds (d := d) kind
      (p := fun id => decide (EntityId.largestRead < id))
      fun id hid => decide_eq_false (Nat.not_lt_of_le (hothers id hid))
    have hiterate := EntityId.iterate_successor (n := unread) (k := start + k - unread) (by omega)
    rw [hfilter, hrow, filter_range' (by omega), hiterate.2]
    rfl
  rw [ofJson_eq, entityIds_reconcile, entityIds_coerce_toJson,
    (accepts_coerce_toJson d).nextId_eq hlast hmem]
  exact settle_resume hv.present hv.distinct (fun _ _ => List.not_mem_nil) hlarge

/-! ### References -/

/-- Position by position two diagrams have the same identifiers and the same references. -/
structure SameLinks (d e : Diagram) : Prop where
  ids : e.idLists = d.idLists
  edges : e.flowchart.edges.map (fun x => (x.source, x.target)) =
    d.flowchart.edges.map fun x => (x.source, x.target)
  messages : e.sequence.messages.map (fun x => (x.sender, x.receiver)) =
    d.sequence.messages.map fun x => (x.sender, x.receiver)

theorem sameLinks_ofJson_toJson {d : Diagram}
    (hids : (ofJson d.toJson).entityIds = d.entityIds)
    (hedges : ∀ e ∈ d.flowchart.edges, e.Storable)
    (hmessages : ∀ m ∈ d.sequence.messages, m.Storable) : SameLinks d (ofJson d.toJson) := by
  have hanon : (ofJson d.toJson).anonymous = (coerce d.toJson).anonymous := by
    rw [ofJson_eq, anonymous_reconcile]
  have hlengths : (ofJson d.toJson).idLists.map List.length = d.idLists.map List.length := by
    rw [← length_idLists_anonymous, hanon, length_idLists_anonymous, idLists_coerce_toJson,
      List.map_map]
    exact List.map_congr_left fun ids _ => List.length_map _
  refine ⟨?_, ?_, ?_⟩
  · exact List.eq_iff_flatten_eq.mpr ⟨by rw [flatten_idLists, flatten_idLists, hids], hlengths⟩
  · have hsame : Entity.anonymous (ofJson d.toJson).flowchart.edges =
        Entity.anonymous d.flowchart.edges := by
      have h := congrArg (fun d : Diagram => d.flowchart.edges) hanon
      rw [coerce_toJson] at h
      dsimp only [anonymous] at h
      rw [Entity.map_ofJson_toJson _ fun e he => Edge.ofJson_toJson (hedges e he),
        Entity.anonymous_accepted] at h
      exact h
    rw [← Entity.map_anonymous (fun _ _ => rfl), hsame, Entity.map_anonymous fun _ _ => rfl]
  · have hsame : Entity.anonymous (ofJson d.toJson).sequence.messages =
        Entity.anonymous d.sequence.messages := by
      have h := congrArg (fun d : Diagram => d.sequence.messages) hanon
      rw [coerce_toJson] at h
      dsimp only [anonymous] at h
      rw [Entity.map_ofJson_toJson _ fun m hm => Message.ofJson_toJson (hmessages m hm),
        Entity.anonymous_accepted] at h
      exact h
    rw [← Entity.map_anonymous (fun _ _ => rfl), hsame, Entity.map_anonymous fun _ _ => rfl]

/-! ### Diagrams that were read from text -/

section Read

variable {source : Text} {previous d : Diagram} (h : readText source previous = .ok d)
  (hv : previous.Valid)

include h hv

/-- A chart other than a flowchart or a sequence diagram gets identifiers in a row. -/
theorem row_readText (hc : 1 ≤ previous.counter)
    (hread : previous.counter ≤ EntityId.largestRead) (hlength : source.length < 0x8000000000000000)
    (hk : d.kind ≠ .flowchart ∧ d.kind ≠ .sequence) :
    ∃ k, d.idsOf d.kind = List.range' previous.counter k ∧ d.counter = previous.counter + k ∧
      d.counter < EntityId.largest := by
  have hmax : EntityId.largest = 0xFFFFFFFFFFFFFFFF := rfl
  have hlargest : EntityId.largestRead = 0x1FFFFFFFFFFFFF := rfl
  obtain ⟨header, rest, hl, hf⟩ := readFrom_chartRead h
  obtain ⟨_, _, hl', hd⟩ := readText_eq_ok h
  cases hl.symm.trans hl'
  have hlines := two_mul_length_contentLines_le source
  rw [hl, List.length_cons] at hlines
  cases hg : Grammar.ofHeader header with
  | bare => exact absurd (hf.kind_eq.trans (by rw [hg]; rfl)) hk.1
  | headed kind =>
    have hids : d.idsOf kind = (chartRead previous header rest).1.idsOf kind := by
      rw [hd]
      cases kind <;> rfl
    rw [hg] at hf
    dsimp only [Grammar.kind] at hf
    have hkind : d.kind = kind := hf.kind_eq
    rw [hkind] at hk ⊢
    have hsame : previous.reconcile = previous := hv.reconcile_eq_self hc
    have hstart : (scopeFor previous kind).next = previous.counter :=
      (congrArg nextId hsame).trans (hv.nextId_eq hc)
    obtain ⟨k, hle, hrow, hlast⟩ :=
      inRow_readChart previous.reconcile header rest (scopeFor previous kind) hk
    obtain ⟨hend, hrange⟩ := EntityId.iterate_successor (n := previous.counter) (k := k) (by omega)
    rw [hstart] at hrow hlast
    have hidsOf : d.idsOf kind = List.range' previous.counter k := by
      rw [hids]
      unfold chartRead
      rw [hg]
      exact hrow.trans hrange
    have hnext : (chartRead previous header rest).2.next = previous.counter + k := by
      unfold chartRead
      rw [hg]
      exact hlast.trans hend
    -- The row and the entities of other kinds are below the counter where the row ends.
    have hbelow : ∀ id ∈ d.entityIds, id < previous.counter + k := by
      intro id hid
      rcases (d.mem_entityIds kind).mp hid with hm | hm
      · rw [hidsOf] at hm
        exact (List.mem_range'_1.mp hm).2
      · rw [hf.agrees.idsExcept_eq, hsame] at hm
        have hmem := (previous.mem_entityIds kind).mpr (.inr hm)
        exact Nat.lt_of_lt_of_le (hv.below id hmem) (Nat.le_add_right _ _)
    have hcounter : d.counter = previous.counter + k := by
      rw [hf.counter_eq, hnext]
      exact max_successor_maxId (by omega) hbelow
    exact ⟨k, hidsOf, hcounter, by omega⟩

/-- What a text joins can be stored if its identifiers are read; what other charts join is as it was. -/
theorem storable_readText (hs : previous.Storable)
    (hids : d.kind = .flowchart ∨ d.kind = .sequence →
      ∀ id ∈ d.entityIds, id ≤ EntityId.largestRead) :
    (∀ e ∈ d.flowchart.edges, e.Storable) ∧ ∀ m ∈ d.sequence.messages, m.Storable := by
  obtain ⟨hnodes, hparticipants⟩ := linked_readText h
  have hagree := agreesExcept_readText h hv
  constructor
  · by_cases hk : d.kind = .flowchart
    · intro e he
      obtain ⟨hsource, htarget⟩ := hnodes hk e he
      have hmem : ∀ id ∈ Entity.ids d.flowchart.nodes, id ∈ d.entityIds := fun id hid =>
        (d.mem_entityIds .flowchart).mpr (.inl (List.mem_append_left _ hid))
      exact ⟨hids (.inl hk) _ (hmem _ hsource), hids (.inl hk) _ (hmem _ htarget)⟩
    · rw [hagree.flowchart hk]
      exact hs.edges
  · by_cases hk : d.kind = .sequence
    · intro m hm
      obtain ⟨hsender, hreceiver⟩ := hparticipants hk m hm
      have hmem : ∀ id ∈ Entity.ids d.sequence.participants, id ∈ d.entityIds := fun id hid =>
        (d.mem_entityIds .sequence).mpr (.inl (List.mem_append_left _ hid))
      exact ⟨hids (.inr hk) _ (hmem _ hsender), hids (.inr hk) _ (hmem _ hreceiver)⟩
    · rw [hagree.sequence hk]
      exact hs.messages

end Read

theorem valid_ofJson {raw : Json} (h : (ofJson raw).counter < EntityId.largest) :
    (ofJson raw).Valid ∧ 1 ≤ (ofJson raw).counter := by
  rw [ofJson_eq] at h ⊢
  obtain ⟨hv, hn⟩ := reconcile_sound h
  exact ⟨hv, Nat.le_trans (nextId_pos _) hn⟩

/-- Reading a text into a diagram that was read from a document gives one whose document has the
same identifiers and references, if flowcharts and sequence diagrams do not count further than
identifiers are read. -/
theorem sameLinks_readText {raw : Json} {source : Text} {d : Diagram}
    (hread : (ofJson raw).counter ≤ EntityId.largestRead)
    (h : readText source (ofJson raw) = .ok d) (hlength : source.length < 0x8000000000000000)
    (hk : d.kind = .flowchart ∨ d.kind = .sequence → d.counter ≤ 0x20000000000000) :
    SameLinks d (ofJson d.toJson) := by
  have hmax : EntityId.largest = 0xFFFFFFFFFFFFFFFF := rfl
  have hlargest : EntityId.largestRead = 0x1FFFFFFFFFFFFF := rfl
  have hsmall : (ofJson raw).counter < EntityId.largest := by omega
  obtain ⟨hv, hc⟩ := valid_ofJson hsmall
  by_cases hchart : d.kind = .flowchart ∨ d.kind = .sequence
  · have hcounter := hk hchart
    obtain ⟨hvd, -⟩ := valid_readText h (by omega)
    have hids : ∀ id ∈ d.entityIds, id ≤ EntityId.largestRead := by
      intro id hid
      have hb := hvd.below id hid
      omega
    obtain ⟨hedges, hmessages⟩ :=
      storable_readText h hv (storable_ofJson raw) fun _ => hids
    exact sameLinks_ofJson_toJson (entityIds_ofJson_toJson hvd hids) hedges hmessages
  · have hother := not_or.mp hchart
    obtain ⟨k, hrow, hcounter, hend⟩ := row_readText h hv hc hread hlength hother
    obtain ⟨hvd, -⟩ := valid_readText h hend
    obtain ⟨hedges, hmessages⟩ :=
      storable_readText h hv (storable_ofJson raw) fun hk => absurd hk hchart
    refine sameLinks_ofJson_toJson ?_ hedges hmessages
    by_cases hlast : EntityId.largestRead < d.counter
    · refine entityIds_ofJson_toJson_row hvd hrow hcounter ?_ hread hlast hend
      intro id hid
      rw [(agreesExcept_readText h hv).idsExcept_eq] at hid
      have hmem := ((ofJson raw).mem_entityIds d.kind).mpr (.inr hid)
      have hb := hv.below id hmem
      omega
    · refine entityIds_ofJson_toJson hvd fun id hid => ?_
      have hb := hvd.below id hid
      omega

/-- The counter is the largest identifier that is read, and an edge leads to no node. -/
def farDocument : Json :=
  .object
    [("nextId".toList, .ofNat EntityId.largestRead),
     ("nodes".toList, .array [.object [("id".toList, .ofNat 3)]]),
     ("edges".toList, .array
      [.object [("id".toList, .ofNat 4), ("from".toList, .ofNat 3), ("to".toList, .ofNat 9)]])]

/-- Beyond the counter, the slices of a pie are numbered on; an edge may get the last identifier. -/
theorem sameLinks_readText_far :
    (∃ d, readText "pie\nA: 1\nB: 2\nC: 0".toList (ofJson farDocument) = .ok d ∧
      d.entityIds = [3, 4, 0x1FFFFFFFFFFFFF, 0x20000000000000, 0x20000000000001] ∧
      SameLinks d (ofJson d.toJson)) ∧
    ∃ d, readText "graph TD\nN7 --> N8".toList (ofJson farDocument) = .ok d ∧
      d.entityIds = [7, 8, 0x1FFFFFFFFFFFFF] ∧ SameLinks d (ofJson d.toJson) := by
  have hread : (ofJson farDocument).counter ≤ EntityId.largestRead := by decide +kernel
  have hpie : (readText "pie\nA: 1\nB: 2\nC: 0".toList (ofJson farDocument)).toOption.any
      (fun d => decide (d.kind = .pie ∧ d.entityIds =
        [3, 4, 0x1FFFFFFFFFFFFF, 0x20000000000000, 0x20000000000001])) = true := by
    decide +kernel
  have hedge : (readText "graph TD\nN7 --> N8".toList (ofJson farDocument)).toOption.any
      (fun d => decide (d.counter ≤ 0x20000000000000 ∧
        d.entityIds = [7, 8, 0x1FFFFFFFFFFFFF])) = true := by
    decide +kernel
  obtain ⟨d, hd, ho⟩ := exists_readText hpie
  obtain ⟨hk, hids⟩ := of_decide_eq_true ho
  obtain ⟨d', hd', ho'⟩ := exists_readText hedge
  obtain ⟨hc', hids'⟩ := of_decide_eq_true ho'
  have hother : d.kind = .flowchart ∨ d.kind = .sequence → d.counter ≤ 0x20000000000000 := by
    rw [hk]
    rintro (h | h) <;> cases h
  exact ⟨⟨d, hd, hids, sameLinks_readText hread hd (by decide) hother⟩,
    d', hd', hids', sameLinks_readText hread hd' (by decide) fun _ => hc'⟩

/-- What `N9007199254740991 --> B` reads as. -/
def beyondRead : Diagram where
  counter := 0x20000000000002
  flowchart :=
    { nodes :=
        [{ id := 0x1FFFFFFFFFFFFF, label := "N9007199254740991".toList, x := 180, y := 140 },
         { id := 0x20000000000000, label := "B".toList, x := 400, y := 140 }]
      edges := [{ id := 0x20000000000001, source := 0x1FFFFFFFFFFFFF, target := 0x20000000000000 }] }

/-- A reference to an identifier behind the last one that is read is lost. -/
theorem not_sameLinks_readText :
    ¬ ∀ raw source d, (ofJson raw).counter ≤ EntityId.largestRead →
      readText source (ofJson raw) = .ok d → SameLinks d (ofJson d.toJson) := by
  intro h
  have hread : readText "graph TD\nN9007199254740991 --> B".toList (ofJson .null) =
      .ok beyondRead := by decide +kernel
  have hlost := (h .null _ beyondRead (by decide +kernel) hread).edges
  exact absurd hlost (by decide +kernel)

end Diagram
end DiagramDoc
