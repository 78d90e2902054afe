import DiagramDoc.Dialect.Scope
import DiagramDoc.Proofs.Diagram.Identifiers

/-!
# Handing out identifiers while reading

A scope is sound when the identifiers of the other kinds and those handed out are distinct and lie
below the next fresh one. Each way to hand out an identifier keeps it so, as long as counting has
not come to its end. A reader accounts for its scope when exactly the identifiers it was handed are
those of its new entities.
-/

namespace DiagramDoc.Dialect.Scope

/-- The invariant of a scope whose reading began at the fresh identifier `start`. -/
structure Sound (start : Nat) (s : Scope) : Prop where
  start_pos : 0 < start
  start_le : start ≤ s.next
  present : ∀ id ∈ s.claimed ++ s.reserved, id ≠ EntityId.missing
  distinct : (s.claimed ++ s.reserved).Nodup
  below : ∀ id ∈ s.claimed ++ s.reserved, id < s.next
  drawn_sublist : s.drawn.Sublist s.claimed
  start_le_drawn : ∀ id ∈ s.drawn, start ≤ id

/-- From `s` one comes to `t` by handing out identifiers, the latest first. -/
structure Grants (s : Scope) (ids : List Nat) (t : Scope) : Prop where
  reserved : t.reserved = s.reserved
  claimed : t.claimed = ids ++ s.claimed
  grows : t.next < EntityId.largest → s.next ≤ t.next
  sound : t.next < EntityId.largest → ∀ start, Sound start s → Sound start t

theorem Grants.refl (s : Scope) : Grants s [] s where
  reserved := rfl
  claimed := rfl
  grows _ := Nat.le_refl _
  sound _ _ h := h

theorem Grants.trans {s t u : Scope} {as bs : List Nat} (hst : Grants s as t)
    (htu : Grants t bs u) : Grants s (bs ++ as) u where
  reserved := htu.reserved.trans hst.reserved
  claimed := by rw [htu.claimed, hst.claimed, List.append_assoc]
  grows hu := by
    have ht := htu.grows hu
    exact Nat.le_trans (hst.grows (Nat.lt_of_le_of_lt ht hu)) ht
  sound hu start hs := by
    have ht := htu.grows hu
    exact htu.sound hu start (hst.sound (Nat.lt_of_le_of_lt ht hu) start hs)

theorem grants_note (s : Scope) (message : Text) (fields : List (Text × Text)) :
    Grants s [] (s.note message fields) where
  reserved := rfl
  claimed := rfl
  grows _ := Nat.le_refl _
  sound _ _ h := ⟨h.1, h.2, h.3, h.4, h.5, h.6, h.7⟩

theorem grants_skip (s : Scope) (kind : Kind) (line : Text) : Grants s [] (s.skip kind line) :=
  grants_note s _ _

theorem grants_fresh (s : Scope) : Grants s [s.fresh.1] s.fresh.2 where
  reserved := rfl
  claimed := rfl
  grows h := by
    have he : s.fresh.2.next = s.next + 1 := EntityId.successor_eq_of_lt h
    omega
  sound h start hs := by
    have he : s.fresh.2.next = s.next + 1 := EntityId.successor_eq_of_lt h
    have hpos : 0 < s.next := Nat.lt_of_lt_of_le hs.start_pos hs.start_le
    exact {
      start_pos := hs.start_pos
      start_le := he ▸ Nat.le_succ_of_le hs.start_le
      present := List.forall_mem_cons.mpr ⟨Nat.ne_of_gt hpos, hs.present⟩
      distinct := List.nodup_cons.mpr
        ⟨fun hm => Nat.lt_irrefl _ (hs.below s.next hm), hs.distinct⟩
      below := by
        rw [he]
        exact List.forall_mem_cons.mpr
          ⟨Nat.lt_succ_self _, fun id hid => Nat.lt_succ_of_lt (hs.below id hid)⟩
      drawn_sublist := hs.drawn_sublist.cons_cons s.next
      start_le_drawn := List.forall_mem_cons.mpr ⟨hs.start_le, hs.start_le_drawn⟩ }

theorem literal?_inRange {letter : Char} {name : Text} {id : Nat}
    (h : literal? letter name = some id) : EntityId.InRange id := by
  unfold literal? at h
  split at h
  · cases h
  · split at h
    · next hr =>
      cases h
      exact hr.2.2.2
    · cases h

theorem grants_allot (s : Scope) (letter : Char) (name : Text) :
    Grants s [(s.allot letter name).1] (s.allot letter name).2 := by
  unfold allot
  split
  · exact grants_fresh s
  · next id hid =>
    split
    · exact (grants_note s _ _).trans (grants_fresh _)
    · next hfree =>
      -- A name that is honoured moves the counter past its identifier, if it is not there yet.
      have hr := literal?_inRange hid
      have hs : EntityId.successor id = id + 1 := by
        refine EntityId.successor_eq (Nat.lt_of_le_of_lt hr.2 ?_)
        decide
      have hge : s.next ≤ if s.next ≤ id then EntityId.successor id else s.next := by
        split <;> omega
      have hlt : id < if s.next ≤ id then EntityId.successor id else s.next := by
        split <;> omega
      exact {
        reserved := rfl
        claimed := rfl
        grows := fun _ => hge
        sound := fun _ start h => {
          start_pos := h.start_pos
          start_le := Nat.le_trans h.start_le hge
          present := List.forall_mem_cons.mpr ⟨Nat.ne_of_gt hr.1, h.present⟩
          distinct := by
            refine List.nodup_cons.mpr ⟨fun hm => hfree ?_, h.distinct⟩
            exact (List.mem_append.mp hm).symm
          below := List.forall_mem_cons.mpr
            ⟨hlt, fun i hi => Nat.lt_of_lt_of_le (h.below i hi) hge⟩
          drawn_sublist := h.drawn_sublist.cons id
          start_le_drawn := h.start_le_drawn } }

/-! ### Accounting for what was handed out -/

/-- Between two scopes the identifiers of entities grew by exactly those handed out. -/
def Accounts (s : Scope) (before : List Nat) (t : Scope) (after : List Nat) : Prop :=
  ∃ ids, Grants s ids t ∧ after.Perm (ids ++ before)

theorem Accounts.refl (s : Scope) (ids : List Nat) : Accounts s ids s ids :=
  ⟨[], Grants.refl s, List.Perm.refl _⟩

theorem Accounts.trans {s t u : Scope} {as bs cs : List Nat} (hst : Accounts s as t bs)
    (htu : Accounts t bs u cs) : Accounts s as u cs := by
  obtain ⟨xs, hx, hxp⟩ := hst
  obtain ⟨ys, hy, hyp⟩ := htu
  refine ⟨ys ++ xs, hx.trans hy, ?_⟩
  rw [List.append_assoc]
  exact hyp.trans (hxp.append_left ys)

theorem accounts_skip (s : Scope) (kind : Kind) (line : Text) (ids : List Nat) :
    Accounts s ids (s.skip kind line) ids :=
  ⟨[], grants_skip s kind line, List.Perm.refl _⟩

theorem accounts_foldl {σ : Type} (scopeOf : σ → Scope) (idsOf : σ → List Nat)
    (step : σ → Text → σ)
    (h : ∀ d line, Accounts (scopeOf d) (idsOf d) (scopeOf (step d line)) (idsOf (step d line)))
    (lines : List Text) (d : σ) :
    Accounts (scopeOf d) (idsOf d) (scopeOf (lines.foldl step d)) (idsOf (lines.foldl step d)) := by
  induction lines generalizing d with
  | nil => exact Accounts.refl _ _
  | cons line lines ih => exact (h d line).trans (ih (step d line))

end DiagramDoc.Dialect.Scope
