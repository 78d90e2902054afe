import DiagramDoc.Proofs.Document.Stored

/-!
# Reading a document once and again

Reading the document of a diagram that was read from some document gives this diagram again. The
identifiers from `2⁵³` on are missing in the second document; they are given again in the same order
because they were given in this order before, and the counter stood behind all others.
-/

namespace DiagramDoc

namespace Claims

theorem mem_cons_or (i g : Nat) (met rest : List Nat) :
    (i ∈ g :: met ∨ i ∈ rest) ↔ (i ∈ met ∨ i ∈ g :: rest) := by
  rw [List.mem_cons, List.mem_cons, or_assoc, or_left_comm]

theorem mem_settle {met : List Nat} {next : Nat} {ids : List Nat} {i : Nat} (h : i ∈ ids)
    (hi : i ≠ EntityId.missing) : i ∈ met ∨ i ∈ (settle met next ids).1 := by
  induction ids generalizing met next with
  | nil => cases h
  | cons id ids ih =>
    by_cases hid : id = EntityId.missing ∨ id ∈ met
    · rw [settle_cons_fresh hid]
      rcases List.mem_cons.mp h with he | h
      · rw [he] at hi ⊢
        exact .inl (hid.resolve_left hi)
      · exact (mem_cons_or _ _ _ _).mp (ih h)
    · rw [settle_cons_kept hid]
      rcases List.mem_cons.mp h with he | h
      · exact .inr (he ▸ List.mem_cons_self)
      · exact (mem_cons_or _ _ _ _).mp (ih h)

theorem mem_settle_fresh {met : List Nat} {next : Nat} {ids : List Nat} {i : Nat} (h : next ≤ i)
    (hi : i < (settle met next ids).2) (hl : i < EntityId.largest) :
    i ∈ (settle met next ids).1 := by
  induction ids generalizing met next with
  | nil =>
    rw [settle_nil] at hi
    exact absurd hi (Nat.not_lt_of_le h)
  | cons id ids ih =>
    by_cases hid : id = EntityId.missing ∨ id ∈ met
    · rw [settle_cons_fresh hid] at hi ⊢
      have hs : EntityId.successor next = next + 1 := EntityId.successor_eq (by omega)
      by_cases he : i = next
      · exact he ▸ List.mem_cons_self
      · exact List.mem_cons_of_mem _ (ih (by omega) hi)
    · rw [settle_cons_kept hid] at hi ⊢
      exact List.mem_cons_of_mem _ (ih h hi)

/-- The first identifier that is not read. -/
def unread : Nat := EntityId.largestRead + 1

theorem successor_le_largestRead {next : Nat} (h : EntityId.successor next ≤ EntityId.largestRead) :
    next < EntityId.largestRead ∧ EntityId.successor next = next + 1 := by
  have hlargest : EntityId.largestRead < EntityId.largest := by decide
  have hs := EntityId.successor_eq_of_lt (Nat.lt_of_le_of_lt h hlargest)
  omega

/-- Identifiers that were given and then read are given again, where the counter starts from the
first one that is not read. -/
theorem settle_accept {met : List Nat} {next : Nat} {ids : List Nat} (hpos : 0 < next)
    (hmet : next ≤ EntityId.largestRead → ∀ i ∈ met, i < next)
    (hids : ∀ i ∈ ids, i ≤ EntityId.largestRead ∧ (next ≤ EntityId.largestRead → i < next)) :
    settle met (max next unread) ((settle met next ids).1.map EntityId.accept) =
      ((settle met next ids).1, max (settle met next ids).2 unread) := by
  have hu : unread = EntityId.largestRead + 1 := rfl
  induction ids generalizing met next with
  | nil => rfl
  | cons id ids ih =>
    obtain ⟨⟨hread, hid⟩, hids⟩ := List.forall_mem_cons.mp hids
    by_cases h : id = EntityId.missing ∨ id ∈ met
    · rw [settle_cons_fresh h]
      have hmet' : EntityId.successor next ≤ EntityId.largestRead →
          ∀ i ∈ next :: met, i < EntityId.successor next := by
        intro hle
        obtain ⟨hlt, hs⟩ := successor_le_largestRead hle
        have hbelow := hmet (Nat.le_of_lt hlt)
        rw [hs]
        exact List.forall_mem_cons.mpr
          ⟨Nat.lt_succ_self next, fun i hi => Nat.lt_succ_of_lt (hbelow i hi)⟩
      have hids' : ∀ i ∈ ids, i ≤ EntityId.largestRead ∧
          (EntityId.successor next ≤ EntityId.largestRead → i < EntityId.successor next) := by
        refine fun i hi => ⟨(hids i hi).1, fun hle => ?_⟩
        obtain ⟨hlt, hs⟩ := successor_le_largestRead hle
        have hbelow := (hids i hi).2 (Nat.le_of_lt hlt)
        omega
      have hr := ih (EntityId.successor_pos next) hmet' hids'
      rw [List.map_cons]
      by_cases hn : next ≤ EntityId.largestRead
      · -- The identifier was fresh and can be read: now it is kept.
        have hk : ¬ (next = EntityId.missing ∨ next ∈ met) := by
          rintro (hz | hm)
          · exact Nat.ne_of_gt hpos hz
          · exact Nat.lt_irrefl next (hmet hn next hm)
        have hs := EntityId.successor_le next
        have he : max (EntityId.successor next) unread = max next unread := by omega
        rw [EntityId.accept_of_le hn, settle_cons_kept hk, ← he, hr]
      · -- The identifier was fresh and is not read: now it is the fresh one again.
        have hs : EntityId.largestRead < EntityId.successor next :=
          Nat.lt_of_not_le fun hle => hn (Nat.le_of_lt (successor_le_largestRead hle).1)
        have hm : max next unread = next := by omega
        have he : max (EntityId.successor next) unread = EntityId.successor next := by omega
        rw [he] at hr
        rw [EntityId.accept_of_lt (Nat.lt_of_not_le hn), settle_cons_fresh (.inl rfl), hm, hr]
    · rw [settle_cons_kept h]
      have hmet' : next ≤ EntityId.largestRead → ∀ i ∈ id :: met, i < next := fun hn =>
        List.forall_mem_cons.mpr ⟨hid hn, hmet hn⟩
      have hr := ih hpos hmet' hids
      rw [List.map_cons, EntityId.accept_of_le hread, settle_cons_kept h, hr]

end Claims

namespace Diagram

open Claims

section Accepted

variable {d : Diagram} (hread : ∀ id ∈ d.entityIds, id ≤ EntityId.largestRead)
  (hc : d.counter ≤ EntityId.largestRead)

include hread hc

theorem nextId_le_unread : d.nextId ≤ unread := by
  have hn := d.nextId_le
  have hm : d.maxId ≤ EntityId.largestRead := maxId_le.mpr hread
  have hu : unread = EntityId.largestRead + 1 := rfl
  omega

theorem settle_lt_largest (hlen : d.entityIds.length < 0x8000000000000000) :
    (settle [] d.nextId d.entityIds).2 < EntityId.largest := by
  have hb := settle_next_bound [] d.nextId d.entityIds
  have hn := nextId_le_unread hread hc
  have hu : unread = 0x20000000000000 := rfl
  have hl : EntityId.largest = 0xFFFFFFFFFFFFFFFF := rfl
  omega

theorem largestRead_mem (h : EntityId.largestRead < (settle [] d.nextId d.entityIds).2) :
    EntityId.largestRead ∈ d.reconcile.entityIds := by
  rw [entityIds_reconcile]
  by_cases hn : d.nextId ≤ EntityId.largestRead
  · exact mem_settle_fresh hn h (by decide)
  · -- Counting began beyond all identifiers that are read, so an entity has the largest of them.
    have hs := EntityId.successor_le d.maxId
    have hm : d.maxId ≤ EntityId.largestRead := maxId_le.mpr hread
    have hmax : d.nextId = max d.counter (EntityId.successor d.maxId) := rfl
    have he : d.maxId = EntityId.largestRead := by omega
    have hpos : 0 < EntityId.largestRead := by decide
    have hin : EntityId.largestRead ∈ d.entityIds := by
      rw [← he]
      exact maxId_mem (by omega)
    have hmem : EntityId.largestRead ∈ [] ∨
        EntityId.largestRead ∈ (settle [] d.nextId d.entityIds).1 :=
      mem_settle hin (Nat.ne_of_gt hpos)
    exact hmem.resolve_left List.not_mem_nil

end Accepted

/-- What reading the document of `d` finds of the identifiers and the counter. -/
structure Accepts (d e : Diagram) : Prop where
  entityIds : e.entityIds = d.entityIds.map EntityId.accept
  counter : e.counter = max 1 (EntityId.accept d.counter)

theorem accepts_coerce_toJson (d : Diagram) : Accepts d (coerce d.toJson) :=
  ⟨entityIds_coerce_toJson d, counter_coerce_toJson d⟩

theorem Accepts.reconcile_of_le {d e : Diagram} (ha : Accepts d e) (hv : d.Valid)
    (h : d.counter ≤ EntityId.largestRead) :
    e.reconcile.Valid ∧ e.reconcile.entityIds = d.entityIds ∧
      e.reconcile.counter = max 1 d.counter := by
  have hids : e.entityIds = d.entityIds := by
    rw [ha.entityIds]
    calc d.entityIds.map EntityId.accept = d.entityIds.map id := by
          refine List.map_congr_left fun id hid => EntityId.accept_of_le ?_
          have hb := hv.below id hid
          omega
      _ = d.entityIds := List.map_id _
  have hcounter : e.counter = max 1 d.counter := by
    rw [ha.counter, EntityId.accept_of_le h]
  have hv' : e.Valid := hv.of_perm (List.Perm.of_eq hids) (by omega)
  have hn : e.nextId = e.counter := hv'.nextId_eq (by omega)
  rw [hv'.reconcile_eq]
  exact ⟨hv'.of_perm (List.Perm.refl _) e.counter_le_nextId, hids, hn.trans hcounter⟩

/-- If the largest identifier that is read is in use, the next one is the first that is free. -/
theorem Accepts.nextId_eq {d e : Diagram} (ha : Accepts d e)
    (h : EntityId.largestRead < d.counter) (hin : EntityId.largestRead ∈ d.entityIds) :
    e.nextId = unread := by
  have hcounter : e.counter = 1 := by
    rw [ha.counter, EntityId.accept_of_lt h]
    rfl
  have hmax : e.maxId = EntityId.largestRead := by
    refine Nat.le_antisymm (maxId_le.mpr ?_) (le_maxId ?_)
    · rw [ha.entityIds]
      exact List.forall_mem_map.mpr fun id _ => (EntityId.accept_le id).2
    · rw [ha.entityIds]
      exact List.mem_map.mpr ⟨_, hin, EntityId.accept_of_le (Nat.le_refl _)⟩
  unfold nextId
  rw [hcounter, hmax]
  rfl

section Reread

variable {d e : Diagram} (ha : Accepts d.reconcile e)
  (hread : ∀ id ∈ d.entityIds, id ≤ EntityId.largestRead) (hc : d.counter ≤ EntityId.largestRead)

include ha hread hc

/-- A counter that is not read back has the largest identifier that is read standing in for it. -/
theorem Accepts.reconcile_eq_of_unread
    (h : EntityId.largestRead < (settle [] d.nextId d.entityIds).2) :
    e.reconcile.entityIds = d.reconcile.entityIds ∧
      e.reconcile.counter = d.reconcile.counter := by
  have hd := counter_reconcile d
  have he := counter_reconcile e
  have hnext := ha.nextId_eq (by omega) (largestRead_mem hread hc h)
  have hle := nextId_le_unread hread hc
  have hu : unread = EntityId.largestRead + 1 := rfl
  have hlargest : EntityId.largestRead < EntityId.largest := by decide
  have hbelow : ∀ i ∈ d.entityIds,
      i ≤ EntityId.largestRead ∧ (d.nextId ≤ EntityId.largestRead → i < d.nextId) :=
    fun i hi => ⟨hread i hi, fun hn => lt_nextId hi (Nat.lt_of_le_of_lt hn hlargest)⟩
  have hag := settle_accept d.nextId_pos (fun _ _ hi => (List.not_mem_nil hi).elim) hbelow
  rw [Nat.max_eq_right hle, ← entityIds_reconcile, ← ha.entityIds, ← hnext] at hag
  have hids : e.reconcile.entityIds = d.reconcile.entityIds := by
    rw [entityIds_reconcile, hag]
  have hm : e.reconcile.maxId = d.reconcile.maxId := by
    rw [maxId, hids, maxId]
  rw [hag, hm, hnext] at he
  refine ⟨hids, ?_⟩
  dsimp only at he
  omega

/-- The identifiers given when a document is read are those given when it is read again. -/
theorem Accepts.reconcile_eq_of_lt (hl : (settle [] d.nextId d.entityIds).2 < EntityId.largest) :
    e.reconcile.entityIds = d.reconcile.entityIds ∧
      e.reconcile.counter = d.reconcile.counter := by
  obtain ⟨hv, hn, hcounter⟩ := reconcile_spec hl
  have hpos := d.nextId_pos
  by_cases h : d.reconcile.counter ≤ EntityId.largestRead
  · obtain ⟨-, hids, hcount⟩ := ha.reconcile_of_le hv h
    exact ⟨hids, by omega⟩
  · exact ha.reconcile_eq_of_unread hread hc (by omega)

theorem Accepts.reconcile_eq (hlen : d.entityIds.length < 0x8000000000000000) :
    e.reconcile.entityIds = d.reconcile.entityIds ∧
      e.reconcile.counter = d.reconcile.counter :=
  ha.reconcile_eq_of_lt hread hc (settle_lt_largest hread hc hlen)

end Reread

theorem storable_ofJson (raw : Json) : (ofJson raw).Storable := by
  rw [ofJson_eq, ← storable_anonymous, anonymous_reconcile, storable_anonymous]
  exact storable_coerce raw

/-- Reading the document of what was read from a document changes nothing. -/
theorem ofJson_toJson_ofJson {v : Json}
    (h : (coerce v).entityIds.length < 0x8000000000000000) :
    ofJson (ofJson v).toJson = ofJson v := by
  have hs : (coerce v).reconcile.Storable := ofJson_eq v ▸ storable_ofJson v
  obtain ⟨hids, hcounter⟩ := (accepts_coerce_toJson (coerce v).reconcile).reconcile_eq
    (entityIds_coerce_le v) (counter_coerce_le v) h
  rw [ofJson_eq v, ofJson_eq]
  refine eq_of_anonymous ?_ hids hcounter
  rw [anonymous_reconcile, anonymous_coerce_toJson hs]

/-- So it is even where counting came to its end and entities share an identifier. -/
theorem reread_ofJson (v : Json) : ofJson (ofJson v).toJson = ofJson v := by
  have hs : (coerce v).reconcile.Storable := ofJson_eq v ▸ storable_ofJson v
  have ha := accepts_coerce_toJson (coerce v).reconcile
  have hread := entityIds_coerce_le v
  have hc := counter_coerce_le v
  have hlargest : EntityId.largestRead < EntityId.largest := by decide
  obtain ⟨hids, hcounter⟩ : (coerce (coerce v).reconcile.toJson).reconcile.entityIds =
      (coerce v).reconcile.entityIds ∧ (coerce (coerce v).reconcile.toJson).reconcile.counter =
        (coerce v).reconcile.counter := by
    rcases Nat.lt_or_ge (settle [] (coerce v).nextId (coerce v).entityIds).2 EntityId.largest with
      hl | hl
    · exact ha.reconcile_eq_of_lt hread hc hl
    · exact ha.reconcile_eq_of_unread hread hc (by omega)
  rw [ofJson_eq v, ofJson_eq]
  refine eq_of_anonymous ?_ hids hcounter
  rw [anonymous_reconcile, anonymous_coerce_toJson hs]

/-- Three nodes at the top ask for the largest identifier that is read, once as a text, or for
none; the counter stands there as well. -/
def fullDocument : Json :=
  .object
    [("nextId".toList, .ofNat EntityId.largestRead),
     ("nodes".toList, .array
      [.object [("id".toList, .ofNat EntityId.largestRead), ("x".toList, .text "nowhere".toList)],
       .object [("id".toList, .text "9007199254740991".toList), ("label".toList, .boolean true)],
       .null])]

theorem ofJson_toJson_ofJson_full :
    (coerce fullDocument).entityIds.length < 0x8000000000000000 ∧
      (ofJson fullDocument).entityIds = [0x1FFFFFFFFFFFFF, 0x20000000000000, 0x20000000000001] ∧
      ofJson (ofJson fullDocument).toJson = ofJson fullDocument := by
  have hlen : (coerce fullDocument).entityIds.length < 0x8000000000000000 := by decide +kernel
  have hids : (ofJson fullDocument).entityIds =
      [0x1FFFFFFFFFFFFF, 0x20000000000000, 0x20000000000001] := by decide +kernel
  exact ⟨hlen, hids, ofJson_toJson_ofJson hlen⟩

end Diagram
end DiagramDoc
