import DiagramDoc.Diagram.Reconcile
import DiagramDoc.Proofs.Diagram.Identifiers

/-!
# What reconciling does

Reconciling works on the identifiers alone: entities claim theirs in turn, and everything else
stays. Below the end of counting the result is valid, and a valid diagram only has its counter
refreshed.
-/

namespace DiagramDoc

namespace Claims

/-- The identifiers that entities get which claim the given ones in turn, and the next fresh one. -/
def settle (met : List Nat) (next : Nat) : List Nat → List Nat × Nat
  | [] => ([], next)
  | id :: ids =>
    if id = EntityId.missing ∨ id ∈ met then
      (next :: (settle (next :: met) (EntityId.successor next) ids).1,
        (settle (next :: met) (EntityId.successor next) ids).2)
    else (id :: (settle (id :: met) next ids).1, (settle (id :: met) next ids).2)

@[simp] theorem settle_nil (met : List Nat) (next : Nat) : settle met next [] = ([], next) := rfl

theorem settle_cons_fresh {met : List Nat} {next id : Nat} {ids : List Nat}
    (h : id = EntityId.missing ∨ id ∈ met) :
    settle met next (id :: ids) =
      (next :: (settle (next :: met) (EntityId.successor next) ids).1,
        (settle (next :: met) (EntityId.successor next) ids).2) := if_pos h

theorem settle_cons_kept {met : List Nat} {next id : Nat} {ids : List Nat}
    (h : ¬ (id = EntityId.missing ∨ id ∈ met)) :
    settle met next (id :: ids) =
      (id :: (settle (id :: met) next ids).1, (settle (id :: met) next ids).2) := if_neg h

@[simp] theorem length_settle (met : List Nat) (next : Nat) (ids : List Nat) :
    (settle met next ids).1.length = ids.length := by
  induction ids generalizing met next with
  | nil => rfl
  | cons id ids ih =>
    by_cases h : id = EntityId.missing ∨ id ∈ met
    · rw [settle_cons_fresh h, List.length_cons, ih, List.length_cons]
    · rw [settle_cons_kept h, List.length_cons, ih, List.length_cons]

theorem settle_append (met : List Nat) (next : Nat) (as bs : List Nat) :
    settle met next (as ++ bs) =
      ((settle met next as).1 ++
        (settle ((settle met next as).1.reverse ++ met) (settle met next as).2 bs).1,
        (settle ((settle met next as).1.reverse ++ met) (settle met next as).2 bs).2) := by
  induction as generalizing met next with
  | nil => rfl
  | cons id as ih =>
    by_cases h : id = EntityId.missing ∨ id ∈ met
    · simp only [List.cons_append, settle_cons_fresh h, ih, List.reverse_cons,
        List.append_assoc, List.nil_append]
    · simp only [List.cons_append, settle_cons_kept h, ih, List.reverse_cons,
        List.append_assoc, List.nil_append]

section Entities

variable {α : Type} [Entity α] (what : String)

theorem claimAll_eq (claims : Claims) (xs : List α) :
    (claimAll what claims xs).1 =
        Entity.rekey xs (settle claims.met claims.next (Entity.ids xs)).1 ∧
      (claimAll what claims xs).2.met =
        (settle claims.met claims.next (Entity.ids xs)).1.reverse ++ claims.met ∧
      (claimAll what claims xs).2.next =
        (settle claims.met claims.next (Entity.ids xs)).2 := by
  induction xs generalizing claims with
  | nil => exact ⟨rfl, rfl, rfl⟩
  | cons x xs ih =>
    by_cases h : Entity.id x = EntityId.missing ∨ Entity.id x ∈ claims.met
    · have hc : claim what claims (Entity.id x) = (claims.next,
          { met := claims.next :: claims.met, next := EntityId.successor claims.next,
            log := claims.log ++ [note what (Entity.id x) claims.next] }) := if_pos h
      obtain ⟨hx, hm, hn⟩ := ih (claim what claims (Entity.id x)).2
      rw [hc] at hx hm hn
      simp only [claimAll, hc, Entity.ids_cons, settle_cons_fresh h, hx, hm, hn, List.reverse_cons,
        List.append_assoc, List.singleton_append, and_true]
      rfl
    · have hc : claim what claims (Entity.id x) =
          (Entity.id x, { claims with met := Entity.id x :: claims.met }) := if_neg h
      obtain ⟨hx, hm, hn⟩ := ih (claim what claims (Entity.id x)).2
      rw [hc] at hx hm hn
      simp only [claimAll, hc, Entity.ids_cons, settle_cons_kept h, hx, hm, hn, List.reverse_cons,
        List.append_assoc, List.singleton_append, and_true]
      rfl

theorem met_claimAll (claims : Claims) (xs : List α) :
    (claimAll what claims xs).2.met =
      (settle claims.met claims.next (Entity.ids xs)).1.reverse ++ claims.met :=
  (claimAll_eq what claims xs).2.1

theorem next_claimAll (claims : Claims) (xs : List α) :
    (claimAll what claims xs).2.next = (settle claims.met claims.next (Entity.ids xs)).2 :=
  (claimAll_eq what claims xs).2.2

variable [LawfulEntity α]

theorem ids_claimAll (claims : Claims) (xs : List α) :
    Entity.ids (claimAll what claims xs).1 =
      (settle claims.met claims.next (Entity.ids xs)).1 := by
  rw [(claimAll_eq what claims xs).1, Entity.ids_rekey]
  rw [length_settle, Entity.length_ids]

theorem anonymous_claimAll (claims : Claims) (xs : List α) :
    Entity.anonymous (claimAll what claims xs).1 = Entity.anonymous xs := by
  rw [(claimAll_eq what claims xs).1, Entity.anonymous_rekey]
  rw [length_settle, Entity.length_ids]

end Entities

/-! ### Which identifiers are given -/

theorem settle_next_le {met : List Nat} {next : Nat} {ids : List Nat}
    (h : (settle met next ids).2 < EntityId.largest) : next ≤ (settle met next ids).2 := by
  induction ids generalizing met next with
  | nil => exact Nat.le_refl _
  | cons id ids ih =>
    by_cases hid : id = EntityId.missing ∨ id ∈ met
    · rw [settle_cons_fresh hid] at h ⊢
      have hs : EntityId.successor next ≤ _ := ih h
      have he := EntityId.successor_eq_of_lt (Nat.lt_of_le_of_lt hs h)
      exact Nat.le_of_succ_le (he ▸ hs)
    · rw [settle_cons_kept hid] at h ⊢
      exact ih h

/-- What is given without being claimed is what is fresh. -/
theorem mem_settle_of_not_mem {met : List Nat} {next : Nat} {ids : List Nat}
    (hl : (settle met next ids).2 < EntityId.largest) {i : Nat} (h : i ∉ ids) :
    i ∈ (settle met next ids).1 ↔ next ≤ i ∧ i < (settle met next ids).2 := by
  induction ids generalizing met next with
  | nil =>
    refine ⟨fun hm => absurd hm List.not_mem_nil, fun ⟨hge, hlt⟩ => ?_⟩
    exact absurd hlt (Nat.not_lt_of_le hge)
  | cons id ids ih =>
    obtain ⟨hne, hids⟩ := List.ne_and_not_mem_of_not_mem_cons h
    by_cases hid : id = EntityId.missing ∨ id ∈ met
    · rw [settle_cons_fresh hid] at hl ⊢
      have hle := settle_next_le hl
      have he := EntityId.successor_eq_of_lt (Nat.lt_of_le_of_lt hle hl)
      rw [List.mem_cons, ih hl hids]
      omega
    · rw [settle_cons_kept hid] at hl ⊢
      rw [List.mem_cons, ih hl hids]
      exact or_iff_right hne

/-- How many identifiers are missing or were seen before. -/
def lost (seen : List Nat) : List Nat → Nat
  | [] => 0
  | id :: ids => (if id = EntityId.missing ∨ id ∈ seen then 1 else 0) + lost (id :: seen) ids

/-- What identifiers become if each that is missing or was seen before draws the next fresh one. -/
def redrawn (seen : List Nat) (next : Nat) : List Nat → List Nat
  | [] => []
  | id :: ids =>
    if id = EntityId.missing ∨ id ∈ seen then next :: redrawn (id :: seen) (next + 1) ids
    else id :: redrawn (id :: seen) next ids

/-- Each identifier that is lost draws a fresh one: no fresh one is met again. -/
theorem settle_eq_redrawn {met seen : List Nat} {next : Nat} {ids : List Nat}
    (hl : (settle met next ids).2 < EntityId.largest) (hlt : ∀ id ∈ ids, id < next)
    (hs : ∀ id ∈ ids, id ≠ EntityId.missing → (id ∈ met ↔ id ∈ seen)) :
    settle met next ids = (redrawn seen next ids, next + lost seen ids) := by
  induction ids generalizing met seen next with
  | nil => rfl
  | cons id ids ih =>
    obtain ⟨hltid, hlt⟩ := List.forall_mem_cons.mp hlt
    obtain ⟨hsid, hs⟩ := List.forall_mem_cons.mp hs
    have hseen : (id = EntityId.missing ∨ id ∈ met) ↔ (id = EntityId.missing ∨ id ∈ seen) :=
      or_congr_right' hsid
    by_cases hid : id = EntityId.missing ∨ id ∈ met
    · rw [settle_cons_fresh hid] at hl ⊢
      have hle := settle_next_le hl
      have he := EntityId.successor_eq_of_lt (Nat.lt_of_le_of_lt hle hl)
      have hsame : ∀ i ∈ ids, i ≠ EntityId.missing → (i ∈ next :: met ↔ i ∈ id :: seen) := by
        intro i hi hp
        have hne : i ≠ next := Nat.ne_of_lt (hlt i hi)
        rw [List.mem_cons, List.mem_cons, or_iff_right hne, hs i hi hp]
        refine ⟨.inr, fun hor => hor.elim (fun heq => ?_) fun hm => hm⟩
        subst heq
        exact (hseen.mp hid).resolve_left hp
      have hltnext : ∀ i ∈ ids, i < EntityId.successor next := fun i hi =>
        Nat.lt_trans (hlt i hi) (by omega)
      rw [redrawn, lost, if_pos (hseen.mp hid), if_pos (hseen.mp hid), ih hl hltnext hsame, he,
        Nat.add_assoc]
    · rw [settle_cons_kept hid] at hl ⊢
      have hsame : ∀ i ∈ ids, i ≠ EntityId.missing → (i ∈ id :: met ↔ i ∈ id :: seen) := by
        intro i hi hp
        rw [List.mem_cons, List.mem_cons, hs i hi hp]
      rw [redrawn, lost, if_neg (mt hseen.mpr hid), if_neg (mt hseen.mpr hid), ih hl hlt hsame,
        Nat.zero_add]

theorem settle_next_eq {met seen : List Nat} {next : Nat} {ids : List Nat}
    (hl : (settle met next ids).2 < EntityId.largest) (hlt : ∀ id ∈ ids, id < next)
    (hs : ∀ id ∈ ids, id ≠ EntityId.missing → (id ∈ met ↔ id ∈ seen)) :
    (settle met next ids).2 = next + lost seen ids := by
  rw [settle_eq_redrawn hl hlt hs]

theorem settle_next_bound (met : List Nat) (next : Nat) (ids : List Nat) :
    (settle met next ids).2 ≤ next + ids.length := by
  induction ids generalizing met next with
  | nil => exact Nat.le_refl _
  | cons id ids ih =>
    have hs := EntityId.successor_le next
    by_cases hid : id = EntityId.missing ∨ id ∈ met
    · rw [settle_cons_fresh hid, List.length_cons]
      have hr := ih (next :: met) (EntityId.successor next)
      dsimp only
      omega
    · rw [settle_cons_kept hid, List.length_cons]
      have hr := ih (id :: met) next
      dsimp only
      omega

/-- The identifiers met so far are none of them missing, met once, and below the next fresh one. -/
structure Sound (met : List Nat) (next : Nat) : Prop where
  positive : 0 < next
  present : ∀ id ∈ met, id ≠ EntityId.missing
  distinct : met.Nodup
  below : ∀ id ∈ met, id < next

theorem Sound.start {next : Nat} (h : 0 < next) : Sound [] next where
  positive := h
  present _ hid := nomatch hid
  distinct := List.nodup_nil
  below _ hid := nomatch hid

theorem Sound.fresh {met : List Nat} {next : Nat} (h : Sound met next) :
    Sound (next :: met) (next + 1) where
  positive := Nat.succ_pos next
  present := List.forall_mem_cons.mpr ⟨Nat.ne_of_gt h.positive, h.present⟩
  distinct := List.nodup_cons.mpr ⟨fun hm => Nat.lt_irrefl _ (h.below _ hm), h.distinct⟩
  below := List.forall_mem_cons.mpr
    ⟨Nat.lt_succ_self next, fun id hid => Nat.lt_succ_of_lt (h.below id hid)⟩

theorem Sound.kept {met : List Nat} {next id : Nat} (h : Sound met next) (hid : id < next)
    (hk : ¬ (id = EntityId.missing ∨ id ∈ met)) : Sound (id :: met) next where
  positive := h.positive
  present := List.forall_mem_cons.mpr ⟨fun he => hk (.inl he), h.present⟩
  distinct := List.nodup_cons.mpr ⟨fun hm => hk (.inr hm), h.distinct⟩
  below := List.forall_mem_cons.mpr ⟨hid, h.below⟩

theorem settle_sound {met : List Nat} {next : Nat} {ids : List Nat} (hs : Sound met next)
    (hids : ∀ id ∈ ids, id < next) (hl : (settle met next ids).2 < EntityId.largest) :
    Sound ((settle met next ids).1.reverse ++ met) (settle met next ids).2 := by
  induction ids generalizing met next with
  | nil => exact hs
  | cons id ids ih =>
    obtain ⟨hid, hids⟩ := List.forall_mem_cons.mp hids
    by_cases h : id = EntityId.missing ∨ id ∈ met
    · -- The counter has not come to its end here, since it has not in the end.
      rw [settle_cons_fresh h] at hl ⊢
      have he := EntityId.successor_eq_of_lt (Nat.lt_of_le_of_lt (settle_next_le hl) hl)
      have hr := ih (he ▸ hs.fresh) (fun i hi => he ▸ Nat.lt_succ_of_lt (hids i hi)) hl
      simpa only [List.reverse_cons, List.append_assoc, List.singleton_append] using hr
    · rw [settle_cons_kept h] at hl ⊢
      have hr := ih (hs.kept hid h) hids hl
      simpa only [List.reverse_cons, List.append_assoc, List.singleton_append] using hr

theorem settle_eq_self {met : List Nat} {next : Nat} {ids : List Nat}
    (hp : ∀ id ∈ ids, id ≠ EntityId.missing) (hd : ids.Nodup) (hm : ∀ id ∈ ids, id ∉ met) :
    settle met next ids = (ids, next) := by
  induction ids generalizing met with
  | nil => rfl
  | cons id ids ih =>
    obtain ⟨hpi, hp⟩ := List.forall_mem_cons.mp hp
    obtain ⟨hmi, hm⟩ := List.forall_mem_cons.mp hm
    obtain ⟨hdi, hd⟩ := List.nodup_cons.mp hd
    have hr : settle (id :: met) next ids = (ids, next) := by
      refine ih hp hd fun i hi hc => ?_
      rcases List.mem_cons.mp hc with he | hc
      · exact hdi (he ▸ hi)
      · exact hm i hi hc
    rw [settle_cons_kept (by rintro (h | h); exacts [hpi h, hmi h]), hr]

end Claims

namespace Diagram

open Claims

theorem anonymous_reconcile (d : Diagram) : d.reconcile.anonymous = d.anonymous := by
  simp only [reconcile, reconcileWithLog, refresh, anonymous, anonymous_claimAll]

theorem entityIds_reconcile (d : Diagram) :
    d.reconcile.entityIds = (settle [] d.nextId d.entityIds).1 := by
  simp only [entityIds_eq, reconcile, reconcileWithLog, refresh, ids_claimAll, met_claimAll,
    next_claimAll, settle_append, List.append_nil]

theorem counter_reconcile (d : Diagram) :
    d.reconcile.counter =
      max (settle [] d.nextId d.entityIds).2 (EntityId.successor d.reconcile.maxId) := by
  have hd : ∃ e : Diagram, d.reconcile = e.refresh ∧
      e.counter = (settle [] d.nextId d.entityIds).2 := by
    refine ⟨_, rfl, ?_⟩
    simp only [entityIds_eq, met_claimAll, next_claimAll, settle_append, List.append_nil]
  obtain ⟨e, he, hc⟩ := hd
  rw [he, ← hc]
  rfl

/-- Below the end of counting the result is valid, and its counter is the next fresh identifier. -/
theorem reconcile_spec {d : Diagram} (hr : (settle [] d.nextId d.entityIds).2 < EntityId.largest) :
    d.reconcile.Valid ∧ d.nextId ≤ d.reconcile.counter ∧
      d.reconcile.counter = (settle [] d.nextId d.entityIds).2 := by
  have hc := counter_reconcile d
  have hn : d.nextId ≤ (settle [] d.nextId d.entityIds).2 := settle_next_le hr
  have hs : Sound ((settle [] d.nextId d.entityIds).1.reverse ++ [])
      (settle [] d.nextId d.entityIds).2 :=
    settle_sound (Sound.start d.nextId_pos)
      (fun _ hid => lt_nextId hid (Nat.lt_of_le_of_lt hn hr)) hr
  rw [List.append_nil, ← entityIds_reconcile] at hs
  have hv : d.reconcile.Valid :=
    { present := fun id hid => hs.present id (List.mem_reverse.mpr hid)
      distinct := List.pairwise_reverse.mp (hs.distinct.imp Ne.symm)
      below := fun id hid => by
        have hb := hs.below id (List.mem_reverse.mpr hid)
        omega }
  -- Everything given is below the next fresh identifier: refreshing moves the counter no further.
  have hm := max_successor_maxId (d := d.reconcile) hs.positive
    fun id hid => hs.below id (List.mem_reverse.mpr hid)
  exact ⟨hv, by omega, hc.trans hm⟩

/-- A part of the entities draws its fresh identifiers behind those of the entities before it. -/
theorem mem_settle_part {d : Diagram} (h : d.reconcile.counter < EntityId.largest)
    {as bs cs : List Nat} (hids : d.entityIds = as ++ (bs ++ cs)) {i : Nat} (hi : i ∉ bs) :
    i ∈ (settle ((settle [] d.nextId as).1.reverse ++ []) (settle [] d.nextId as).2 bs).1 ↔
      d.nextId + lost [] as ≤ i ∧ i < d.nextId + lost [] (as ++ bs) := by
  have hc := counter_reconcile d
  have hl : (settle [] d.nextId d.entityIds).2 < EntityId.largest := by omega
  have hlt : ∀ id ∈ d.entityIds, id < d.nextId := fun id hid =>
    lt_nextId hid (Nat.lt_of_le_of_lt (settle_next_le hl) hl)
  rw [hids, ← List.append_assoc] at hl hlt
  rw [settle_append] at hl
  have hpart := Nat.lt_of_le_of_lt (settle_next_le hl) hl
  have hboth := settle_next_eq hpart (fun id hid => hlt id (List.mem_append_left _ hid))
    fun _ _ _ => Iff.rfl
  rw [settle_append] at hpart hboth
  have hfirst := settle_next_eq (Nat.lt_of_le_of_lt (settle_next_le hpart) hpart)
    (fun id hid => hlt id (List.mem_append_left _ (List.mem_append_left _ hid)))
    fun _ _ _ => Iff.rfl
  rw [mem_settle_of_not_mem hpart hi, hboth, hfirst]

theorem mem_nodes_reconcile {d : Diagram} (h : d.reconcile.counter < EntityId.largest) {i : Nat}
    (hi : i ∉ Entity.ids d.flowchart.nodes) :
    i ∈ Entity.ids d.reconcile.flowchart.nodes ↔
      d.nextId ≤ i ∧ i < d.nextId + lost [] (Entity.ids d.flowchart.nodes) := by
  have hids : Entity.ids d.reconcile.flowchart.nodes =
      (settle [] d.nextId (Entity.ids d.flowchart.nodes)).1 := ids_claimAll _ _ _
  have hfirst : d.entityIds = [] ++ (Entity.ids d.flowchart.nodes ++ _) := entityIds_eq d
  rw [hids]
  exact mem_settle_part h hfirst hi

theorem mem_participants_reconcile {d : Diagram} (h : d.reconcile.counter < EntityId.largest)
    {i : Nat} (hi : i ∉ Entity.ids d.sequence.participants) :
    i ∈ Entity.ids d.reconcile.sequence.participants ↔
      d.nextId + lost [] (d.idsOf .flowchart) ≤ i ∧
        i < d.nextId + lost [] (d.idsOf .flowchart ++ Entity.ids d.sequence.participants) := by
  have hids : Entity.ids d.reconcile.sequence.participants =
      (settle ((settle [] d.nextId (d.idsOf .flowchart)).1.reverse ++ [])
        (settle [] d.nextId (d.idsOf .flowchart)).2 (Entity.ids d.sequence.participants)).1 := by
    simp only [idsOf, reconcile, reconcileWithLog, refresh, ids_claimAll, met_claimAll,
      next_claimAll, settle_append, List.append_nil, List.reverse_append]
  have hsplit : d.entityIds = d.idsOf .flowchart ++ (Entity.ids d.sequence.participants ++ _) :=
    (entityIds_eq d).trans (List.append_assoc _ _ _).symm
  rw [hids]
  exact mem_settle_part h hsplit hi

/-- Reconciling ends with a valid diagram whose counter has not gone back. -/
theorem reconcile_sound {d : Diagram} (h : d.reconcile.counter < EntityId.largest) :
    d.reconcile.Valid ∧ d.nextId ≤ d.reconcile.counter := by
  have hc := counter_reconcile d
  obtain ⟨hv, hn, -⟩ := reconcile_spec (d := d) (by omega)
  exact ⟨hv, hn⟩

theorem Valid.reconcile_eq {d : Diagram} (h : d.Valid) : d.reconcile = d.refresh := by
  have hs : settle [] d.nextId d.entityIds = (d.entityIds, d.nextId) :=
    settle_eq_self h.present h.distinct (fun _ _ => List.not_mem_nil)
  have hi : d.reconcile.entityIds = d.entityIds := by rw [entityIds_reconcile, hs]
  have hm : d.reconcile.maxId = d.maxId := by rw [maxId, hi, maxId]
  refine eq_of_anonymous (anonymous_reconcile d) hi ?_
  rw [counter_reconcile, hs, hm]
  exact Nat.max_eq_left (Nat.le_max_right _ _)

theorem Valid.reconcile_eq_self {d : Diagram} (hv : d.Valid) (hc : 1 ≤ d.counter) :
    d.reconcile = d := by
  rw [hv.reconcile_eq, refresh, hv.nextId_eq hc]

end Diagram
end DiagramDoc
