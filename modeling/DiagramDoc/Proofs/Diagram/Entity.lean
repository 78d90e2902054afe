import DiagramDoc.Diagram.Basic

/-!
# Entities and their identifiers

Giving an entity another identifier changes nothing else about it. So entities are determined by
what they are without identifiers, together with the list of their identifiers.
-/

namespace DiagramDoc

/-- The identifier of an entity is read and replaced on its own. -/
class LawfulEntity (α : Type) [Entity α] : Prop where
  id_withId : ∀ (x : α) (i : Nat), Entity.id (Entity.withId x i) = i
  withId_id : ∀ x : α, Entity.withId x (Entity.id x) = x
  withId_withId : ∀ (x : α) (i j : Nat), Entity.withId (Entity.withId x i) j = Entity.withId x j

instance : LawfulEntity Node := ⟨fun _ _ => rfl, fun _ => rfl, fun _ _ _ => rfl⟩
instance : LawfulEntity Edge := ⟨fun _ _ => rfl, fun _ => rfl, fun _ _ _ => rfl⟩
instance : LawfulEntity Participant := ⟨fun _ _ => rfl, fun _ => rfl, fun _ _ _ => rfl⟩
instance : LawfulEntity Message := ⟨fun _ _ => rfl, fun _ => rfl, fun _ _ _ => rfl⟩
instance : LawfulEntity Slice := ⟨fun _ _ => rfl, fun _ => rfl, fun _ _ _ => rfl⟩
instance : LawfulEntity Task := ⟨fun _ _ => rfl, fun _ => rfl, fun _ _ _ => rfl⟩
instance : LawfulEntity Step := ⟨fun _ _ => rfl, fun _ => rfl, fun _ _ _ => rfl⟩

namespace Entity

variable {α : Type} [Entity α]

/-- Entities with their identifiers taken away. -/
def anonymous (xs : List α) : List α := xs.map (withId · EntityId.missing)

/-- Gives entities the identifiers of a list, in turn. -/
def rekey (xs : List α) (is : List Nat) : List α := List.zipWith withId xs is

@[simp] theorem ids_nil : ids ([] : List α) = [] := rfl

@[simp] theorem ids_cons (x : α) (xs : List α) : ids (x :: xs) = id x :: ids xs := rfl

@[simp] theorem ids_append (xs ys : List α) : ids (xs ++ ys) = ids xs ++ ids ys :=
  List.map_append

@[simp] theorem length_ids (xs : List α) : (ids xs).length = xs.length := List.length_map _

theorem length_eq_of_anonymous {xs ys : List α} (h : anonymous xs = anonymous ys) :
    xs.length = ys.length := by
  have hl := congrArg List.length h
  simpa only [anonymous, List.length_map] using hl

theorem forall_anonymous (P : α → Prop) (xs : List α) (h : ∀ x i, P (withId x i) ↔ P x) :
    (∀ x ∈ anonymous xs, P x) ↔ ∀ x ∈ xs, P x := by
  unfold anonymous
  rw [List.forall_mem_map]
  exact ⟨fun ha x hx => (h x _).mp (ha x hx), fun ha x hx => (h x _).mpr (ha x hx)⟩

theorem map_anonymous {β : Type} {f : α → β} (hf : ∀ x i, f (withId x i) = f x) (xs : List α) :
    (anonymous xs).map f = xs.map f := by
  unfold anonymous
  rw [List.map_map]
  exact List.map_congr_left fun x _ => hf x _

section Laws

variable [LawfulEntity α]

theorem eq_of_withId {x y : α} {i : Nat} (h : withId x i = withId y i) (hi : id x = id y) :
    x = y := by
  calc x = withId (withId x i) (id x) := by
        rw [LawfulEntity.withId_withId, LawfulEntity.withId_id]
    _ = withId (withId y i) (id y) := by rw [h, hi]
    _ = y := by rw [LawfulEntity.withId_withId, LawfulEntity.withId_id]

theorem eq_of_anonymous {xs ys : List α} (ha : anonymous xs = anonymous ys)
    (hi : ids xs = ids ys) : xs = ys := by
  induction xs generalizing ys with
  | nil =>
    have hl := length_eq_of_anonymous ha
    exact (List.eq_nil_of_length_eq_zero hl.symm).symm
  | cons x xs ih =>
    cases ys with
    | nil => simp [anonymous] at ha
    | cons y ys =>
      simp only [anonymous, List.map_cons, List.cons.injEq] at ha
      simp only [ids_cons, List.cons.injEq] at hi
      rw [eq_of_withId ha.1 hi.1, ih ha.2 hi.2]

theorem ids_rekey (xs : List α) (is : List Nat) (h : is.length = xs.length) :
    ids (rekey xs is) = is := by
  induction xs generalizing is with
  | nil => exact (List.eq_nil_of_length_eq_zero h).symm
  | cons x xs ih =>
    cases is with
    | nil => simp at h
    | cons i is =>
      have hl : is.length = xs.length := Nat.succ.inj h
      show id (withId x i) :: ids (rekey xs is) = i :: is
      rw [LawfulEntity.id_withId, ih is hl]

theorem anonymous_withId_cons {xs ys : List α} (h : anonymous xs = anonymous ys) (x : α) (i : Nat) :
    anonymous (withId x i :: xs) = anonymous (x :: ys) := by
  show withId (withId x i) _ :: anonymous xs = withId x _ :: anonymous ys
  rw [LawfulEntity.withId_withId, h]

theorem anonymous_rekey (xs : List α) (is : List Nat) (h : is.length = xs.length) :
    anonymous (rekey xs is) = anonymous xs := by
  induction xs generalizing is with
  | nil => rfl
  | cons x xs ih =>
    cases is with
    | nil => simp at h
    | cons i is =>
      have hl : is.length = xs.length := Nat.succ.inj h
      exact anonymous_withId_cons (ih is hl) x i

end Laws

/-! ### Looking up, changing and dropping -/

theorem find?_isSome {xs : List α} {i : Nat} : (find? xs i).isSome ↔ i ∈ ids xs := by
  simp [find?, ids]

theorem find?_id {xs : List α} (hd : (ids xs).Nodup) {x : α} (hx : x ∈ xs) :
    find? xs (id x) = some x := by
  unfold find?
  induction xs with
  | nil => cases hx
  | cons y xs ih =>
    obtain ⟨hy, hd⟩ := List.nodup_cons.mp hd
    rcases List.mem_cons.mp hx with rfl | hx
    · rw [List.find?_cons_of_pos (by simp)]
    · have hne : id y ≠ id x := by
        intro he
        exact hy (he ▸ List.mem_map_of_mem hx)
      rw [List.find?_cons_of_neg (by simpa using hne), ih hd hx]

section Changes

variable {β : Type} {f : α → α} {g : α → β} {i : Nat} {xs ys : List α}

theorem map_update? (hf : ∀ x, g (f x) = g x) (h : update? f i xs = some ys) :
    ys.map g = xs.map g := by
  induction xs generalizing ys with
  | nil => simp [update?] at h
  | cons x xs ih =>
    rw [update?] at h
    split at h
    · cases h
      rw [List.map_cons, List.map_cons, hf]
    · obtain ⟨zs, hz, rfl⟩ := Option.map_eq_some_iff.mp h
      rw [List.map_cons, List.map_cons, ih hz]

theorem map_updateLast? (hf : ∀ x, g (f x) = g x) (h : updateLast? f i xs = some ys) :
    ys.map g = xs.map g := by
  induction xs generalizing ys with
  | nil => simp [updateLast?] at h
  | cons x xs ih =>
    rw [updateLast?] at h
    split at h
    · next zs hz =>
      cases h
      rw [List.map_cons, List.map_cons, ih hz]
    · split at h
      · cases h
        rw [List.map_cons, List.map_cons, hf]
      · cases h

/-- The first owner of an identifier is the one that is changed. -/
theorem update?_append_cons {x : α} {i : Nat} (hx : id x = i) {xs : List α} (h : i ∉ ids xs)
    (f : α → α) (ys : List α) : update? f i (xs ++ x :: ys) = some (xs ++ f x :: ys) := by
  induction xs with
  | nil =>
    rw [List.nil_append, update?, if_pos hx]
    rfl
  | cons y xs ih =>
    have hy : ¬ id y = i := fun he => List.ne_of_not_mem_cons h he.symm
    rw [List.cons_append, update?, if_neg hy, ih (List.not_mem_of_not_mem_cons h)]
    rfl

theorem forall_mem_update? {P : α → Prop} (hf : ∀ x, P x → P (f x)) (hx : ∀ x ∈ xs, P x)
    (h : update? f i xs = some ys) : ∀ y ∈ ys, P y := by
  induction xs generalizing ys with
  | nil => simp [update?] at h
  | cons x xs ih =>
    obtain ⟨hx, hxs⟩ := List.forall_mem_cons.mp hx
    rw [update?] at h
    split at h
    · cases h
      exact List.forall_mem_cons.mpr ⟨hf x hx, hxs⟩
    · obtain ⟨zs, hz, rfl⟩ := Option.map_eq_some_iff.mp h
      exact List.forall_mem_cons.mpr ⟨hx, ih hxs hz⟩

theorem forall_mem_updateLast? {P : α → Prop} (hf : ∀ x, P x → P (f x)) (hx : ∀ x ∈ xs, P x)
    (h : updateLast? f i xs = some ys) : ∀ y ∈ ys, P y := by
  induction xs generalizing ys with
  | nil => simp [updateLast?] at h
  | cons x xs ih =>
    obtain ⟨hx, hxs⟩ := List.forall_mem_cons.mp hx
    rw [updateLast?] at h
    split at h
    · next zs hz =>
      cases h
      exact List.forall_mem_cons.mpr ⟨hx, ih hxs hz⟩
    · split at h
      · cases h
        exact List.forall_mem_cons.mpr ⟨hf x hx, hxs⟩
      · cases h

theorem ids_update? (hf : ∀ x, id (f x) = id x) (h : update? f i xs = some ys) :
    ids ys = ids xs := map_update? hf h

theorem mem_of_update? (h : update? f i xs = some ys) : i ∈ ids xs := by
  induction xs generalizing ys with
  | nil => cases h
  | cons x xs ih =>
    rw [update?] at h
    split at h
    · next hx => exact hx ▸ List.mem_cons_self
    · obtain ⟨zs, hz, -⟩ := Option.map_eq_some_iff.mp h
      exact List.mem_cons_of_mem _ (ih hz)

theorem update?_eq_none (h : i ∉ ids xs) (f : α → α) : update? f i xs = none :=
  Option.eq_none_iff_forall_not_mem.mpr fun _ hu => h (mem_of_update? hu)

theorem mem_update?_of_ne (h : update? f i xs = some ys) {x : α} (hx : x ∈ xs) (hne : id x ≠ i) :
    x ∈ ys := by
  induction xs generalizing ys with
  | nil => cases hx
  | cons y xs ih =>
    rw [update?] at h
    split at h
    · next hy =>
      cases h
      rcases List.mem_cons.mp hx with rfl | hx
      · exact absurd hy hne
      · exact List.mem_cons_of_mem _ hx
    · obtain ⟨zs, hz, rfl⟩ := Option.map_eq_some_iff.mp h
      rcases List.mem_cons.mp hx with rfl | hx
      · exact List.mem_cons_self
      · exact List.mem_cons_of_mem _ (ih hz hx)

theorem mem_of_mem_update? (h : update? f i xs = some ys) {x : α} (hx : find? xs i = some x) {y : α}
    (hy : y ∈ ys) : y ∈ xs ∨ y = f x := by
  induction xs generalizing ys with
  | nil => cases h
  | cons z xs ih =>
    rw [update?] at h
    split at h
    · next hz =>
      cases h
      rw [find?, List.find?_cons_of_pos (by simpa using hz), Option.some.injEq] at hx
      subst hx
      rcases List.mem_cons.mp hy with rfl | hy
      · exact .inr rfl
      · exact .inl (List.mem_cons_of_mem _ hy)
    · next hz =>
      obtain ⟨zs, hzs, rfl⟩ := Option.map_eq_some_iff.mp h
      rw [find?, List.find?_cons_of_neg (by simpa using hz)] at hx
      rcases List.mem_cons.mp hy with rfl | hy
      · exact .inl List.mem_cons_self
      · exact (ih hzs hx hy).imp_left (List.mem_cons_of_mem _)

theorem ids_updateLast? (hf : ∀ x, id (f x) = id x) (h : updateLast? f i xs = some ys) :
    ids ys = ids xs := map_updateLast? hf h

theorem map_ite_of_not_mem (h : i ∉ ids xs) (f : α → α) :
    (xs.map fun x => if id x = i then f x else x) = xs := by
  refine (List.map_congr_left fun x hx => ?_).trans (List.map_id' xs)
  have hne : ¬ id x = i := fun he => h (he ▸ List.mem_map_of_mem hx)
  rw [if_neg hne]

/-- With distinct identifiers there is no first or last owner, just one. -/
theorem update?_eq_map (hd : (ids xs).Nodup) (hi : i ∈ ids xs) (f : α → α) :
    update? f i xs = some (xs.map fun x => if id x = i then f x else x) := by
  induction xs with
  | nil => cases hi
  | cons x xs ih =>
    obtain ⟨hx, hd⟩ := List.nodup_cons.mp hd
    rw [update?, List.map_cons]
    by_cases he : id x = i
    · rw [if_pos he, if_pos he, map_ite_of_not_mem (he ▸ hx)]
    · have hm : i ∈ ids xs := (List.mem_cons.mp hi).resolve_left fun h => he h.symm
      rw [if_neg he, if_neg he, ih hd hm]
      rfl

theorem updateLast?_eq_none (h : i ∉ ids xs) (f : α → α) : updateLast? f i xs = none := by
  induction xs with
  | nil => rfl
  | cons x xs ih =>
    obtain ⟨hx, hxs⟩ := not_or.mp fun hm => h (List.mem_cons.mpr hm)
    rw [updateLast?, ih hxs]
    exact if_neg fun he => hx he.symm

theorem updateLast?_eq_map (hd : (ids xs).Nodup) (hi : i ∈ ids xs) (f : α → α) :
    updateLast? f i xs = some (xs.map fun x => if id x = i then f x else x) := by
  induction xs with
  | nil => cases hi
  | cons x xs ih =>
    obtain ⟨hx, hd⟩ := List.nodup_cons.mp hd
    rw [updateLast?, List.map_cons]
    by_cases he : id x = i
    · rw [if_pos he, updateLast?_eq_none (he ▸ hx), map_ite_of_not_mem (he ▸ hx), if_pos he]
    · have hm : i ∈ ids xs := (List.mem_cons.mp hi).resolve_left fun h => he h.symm
      rw [ih hd hm]
      dsimp only
      rw [if_neg he]

end Changes

/-- Dropping succeeds exactly on an identifier in use, and drops its first owner. -/
theorem remove?_eq_some {i : Nat} {xs ys : List α} :
    remove? i xs = some ys ↔ i ∈ ids xs ∧ ys = xs.eraseP (fun x => id x == i) := by
  induction xs generalizing ys with
  | nil => simp [remove?]
  | cons x xs ih =>
    rw [remove?]
    by_cases hx : id x = i
    · simp [hx, eq_comm]
    · have hx' : ¬ i = id x := fun h => hx h.symm
      have he : (x :: xs).eraseP (fun x => id x == i) = x :: xs.eraseP (fun x => id x == i) :=
        List.eraseP_cons_of_neg (by simpa using hx)
      simp only [hx, if_false, Option.map_eq_some_iff, ih, ids_cons, List.mem_cons, hx', false_or]
      rw [he]
      constructor
      · rintro ⟨zs, ⟨hm, rfl⟩, rfl⟩
        exact ⟨hm, rfl⟩
      · rintro ⟨hm, rfl⟩
        exact ⟨_, ⟨hm, rfl⟩, rfl⟩

theorem remove?_eq_none {i : Nat} {xs : List α} (h : i ∉ ids xs) : remove? i xs = none :=
  Option.eq_none_iff_forall_not_mem.mpr fun _ hr => h (remove?_eq_some.mp hr).1

theorem remove?_eq_filter {i : Nat} {xs : List α} (hd : (ids xs).Nodup) (hi : i ∈ ids xs) :
    remove? i xs = some (xs.filter (id · ≠ i)) := by
  induction xs with
  | nil => cases hi
  | cons x xs ih =>
    obtain ⟨hx, hd⟩ := List.nodup_cons.mp hd
    rw [remove?]
    by_cases he : id x = i
    · have hrest : xs.filter (id · ≠ i) = xs := List.filter_eq_self.mpr fun y hy => by
        have hne : id y ≠ i := fun hy' => hx (he ▸ hy' ▸ List.mem_map_of_mem hy)
        simpa using hne
      rw [if_pos he, List.filter_cons_of_neg (by simpa using he), hrest]
    · have hm : i ∈ ids xs := (List.mem_cons.mp hi).resolve_left fun h => he h.symm
      rw [if_neg he, ih hd hm, List.filter_cons_of_pos (by simpa using he)]
      rfl

theorem remove?_sublist {i : Nat} {xs ys : List α} (h : remove? i xs = some ys) :
    ys.Sublist xs := by
  rw [(remove?_eq_some.mp h).2]
  exact List.eraseP_sublist

theorem perm_remove? {i : Nat} {xs ys : List α} (h : remove? i xs = some ys) :
    (ids xs).Perm (i :: ids ys) := by
  induction xs generalizing ys with
  | nil => cases h
  | cons x xs ih =>
    rw [remove?] at h
    split at h
    · next hx =>
      cases h
      rw [ids_cons, hx]
    · obtain ⟨zs, hz, rfl⟩ := Option.map_eq_some_iff.mp h
      rw [ids_cons, ids_cons]
      exact ((ih hz).cons (id x)).trans (List.Perm.swap i (id x) (ids zs))

theorem perm_filter (p : α → Bool) (xs : List α) :
    (ids xs).Perm (ids (xs.filter p) ++ ids (xs.filter fun x => !p x)) := by
  rw [← ids_append]
  exact (List.filter_append_perm p xs).symm.map id

end Entity

/-! ### Links with both their ends -/

theorem Flowchart.joins_iff {f : Flowchart} {e : Edge} :
    f.joins e = true ↔ e.source ∈ Entity.ids f.nodes ∧ e.target ∈ Entity.ids f.nodes := by
  unfold joins node?
  rw [Bool.and_eq_true, Entity.find?_isSome, Entity.find?_isSome]

theorem Sequence.joins_iff {s : Sequence} {m : Message} :
    s.joins m = true ↔
      m.sender ∈ Entity.ids s.participants ∧ m.receiver ∈ Entity.ids s.participants := by
  unfold joins participant?
  rw [Bool.and_eq_true, Entity.find?_isSome, Entity.find?_isSome]

end DiagramDoc
