import DiagramDoc.Proofs.Dialect.Name
import DiagramDoc.Proofs.Dialect.Scope
import Mathlib.Data.List.Induction
import Mathlib.Data.List.Nodup

/-!
# The roll of names

Reading a chart with names meets one name after another. A name that is met for the first time gets an
identifier, and an entity behind those before; from then on it is known. So entities stand in the
order in which their names first appear, whatever else the lines say.
-/

namespace DiagramDoc.Dialect

/-! ### First appearances -/

section FirstAppearances

variable {α : Type} [BEq α] [LawfulBEq α] {xs : List α} {x : α}

theorem eraseDups_concat_of_mem (h : x ∈ xs) : (xs ++ [x]).eraseDups = xs.eraseDups := by
  have hold : [x].removeAll xs = [] := by simp [List.removeAll, h]
  rw [List.eraseDups_append, hold, List.eraseDups_nil, List.append_nil]

theorem eraseDups_concat_of_not_mem (h : x ∉ xs) : (xs ++ [x]).eraseDups = xs.eraseDups ++ [x] := by
  have hnew : [x].removeAll xs = [x] := by simp [List.removeAll, h]
  rw [List.eraseDups_append, hnew, List.eraseDups_cons, List.filter_nil, List.eraseDups_nil]

theorem nodup_eraseDups (xs : List α) : xs.eraseDups.Nodup := by
  induction xs using List.reverseRecOn with
  | nil => simp
  | append_singleton xs x ih =>
    by_cases h : x ∈ xs
    · rwa [eraseDups_concat_of_mem h]
    · rw [eraseDups_concat_of_not_mem h]
      refine List.nodup_append.mpr ⟨ih, List.nodup_singleton x, ?_⟩
      intro y hy z hz
      rw [List.mem_eraseDups] at hy
      rw [List.mem_singleton] at hz
      intro he
      exact h (hz ▸ he ▸ hy)

end FirstAppearances

/-- Of what is said in turn, the last is what counts. -/
theorem getLast?_filterMap_concat {α β : Type} (f : α → Option β) (xs : List α) (x : α) :
    ((xs ++ [x]).filterMap f).getLast? = (f x).or (xs.filterMap f).getLast? := by
  rw [List.filterMap_append]
  cases h : f x with
  | none => simp [h]
  | some y => simp [h]

/-- What holds of the state before all lines, and is kept by each line together with what it says, holds
behind all lines together with what they say. -/
theorem foldl_said {α β σ : Type} (read? : α → Option β) (step : σ → α → σ) {P : List β → σ → Prop}
    {d : σ} (hd : P [] d)
    (hnone : ∀ said d line, read? line = none → P said d → P said (step d line))
    (hsome : ∀ said d line l, read? line = some l → P said d → P (said ++ [l]) (step d line))
    (lines : List α) : P (lines.filterMap read?) (lines.foldl step d) := by
  induction lines using List.reverseRecOn with
  | nil => exact hd
  | append_singleton lines line ih =>
    rw [List.foldl_append, List.foldl_cons, List.foldl_nil, List.filterMap_append]
    cases hl : read? line with
    | none =>
      rw [List.filterMap_cons_none hl, List.filterMap_nil, List.append_nil]
      exact hnone _ _ _ hl ih
    | some l =>
      rw [List.filterMap_cons_some hl, List.filterMap_nil]
      exact hsome _ _ _ _ hl ih

/-! ### Looking names up -/

section LookUp

variable {names : List (Text × Nat)} {name : Text} {id : Nat}

theorem lookup?_cons_self (names : List (Text × Nat)) (name : Text) (id : Nat) :
    lookup? ((name, id) :: names) name = some id := by
  simp [lookup?]

theorem lookup?_cons_of_some {other : Text} {i : Nat} (hnew : lookup? names name = none)
    (h : lookup? names other = some i) : lookup? ((name, id) :: names) other = some i := by
  have hne : name ≠ other := by
    intro he
    rw [he, h] at hnew
    cases hnew
  have hbeq : ((name, id).1 == other) = false := beq_eq_false_iff_ne.mpr hne
  unfold lookup? at h ⊢
  rwa [List.find?_cons_of_neg (by simp [hbeq])]

theorem lookup?_eq_some (hd : (names.map Prod.fst).Nodup) :
    lookup? names name = some id ↔ (name, id) ∈ names := by
  refine ⟨mem_of_lookup?_eq_some, fun h => ?_⟩
  have hmem : name ∈ names.map Prod.fst := List.mem_map_of_mem h
  obtain ⟨i, hi⟩ := Option.ne_none_iff_exists'.mp fun hn => lookup?_eq_none.mp hn hmem
  have hsame : (name, i) = (name, id) :=
    List.inj_on_of_nodup_map hd (mem_of_lookup?_eq_some hi) h rfl
  rw [hi, (Prod.mk.inj hsame).2]

end LookUp

/-! ### Meeting names -/

/-- Where reading stands: the scope, the names with their identifiers, latest first, and the
identifiers of the entities made. -/
structure Roll where
  scope : Scope
  names : List (Text × Nat)
  ids : List Nat

/-- Meeting a name that has the identifier `id` then, whether it was known or not. -/
inductive Roll.Meets (letter : Char) (name : Text) (id : Nat) (r : Roll) : Roll → Prop
  | known (h : lookup? r.names name = some id) : Meets letter name id r r
  | new (h : lookup? r.names name = none) (hid : (r.scope.allot letter name).1 = id) :
    Meets letter name id r
      ⟨(r.scope.allot letter name).2, (name, id) :: r.names, r.ids ++ [id]⟩

/-- From one roll one comes to another by meeting names in turn; in between, identifiers may be drawn
for what has no name, and notes may be made. -/
inductive Roll.Calls (letter : Char) (r : Roll) : List Text → Roll → Prop
  | done : Calls letter r [] r
  | meet {met : List Text} {s t : Roll} {name : Text} {id : Nat} (h : Calls letter r met s)
    (hm : Meets letter name id s t) : Calls letter r (met ++ [name]) t
  | draw {met : List Text} {s : Roll} (h : Calls letter r met s) :
    Calls letter r met { s with scope := s.scope.fresh.2 }
  | note {met : List Text} {s : Roll} (h : Calls letter r met s) (message : Text)
    (fields : List (Text × Text)) :
    Calls letter r met { s with scope := s.scope.note message fields }

namespace Roll

variable {letter : Char} {name : Text} {id : Nat} {met : List Text} {r s t : Roll}

theorem Meets.lookup?_eq (h : Meets letter name id r s) : lookup? s.names name = some id := by
  cases h with
  | known h => exact h
  | new => exact lookup?_cons_self _ _ _

/-- What is known stays known. -/
theorem Meets.lookup?_of_some (h : Meets letter name id r s) {other : Text} {i : Nat}
    (ho : lookup? r.names other = some i) : lookup? s.names other = some i := by
  cases h with
  | known => exact ho
  | new hnew => exact lookup?_cons_of_some hnew ho

theorem Meets.lookup?_of_none (h : Meets letter name id r s) {other : Text}
    (ho : lookup? s.names other = none) : lookup? r.names other = none := by
  cases hr : lookup? r.names other with
  | none => rfl
  | some i =>
    rw [h.lookup?_of_some hr] at ho
    cases ho

theorem Meets.ids_prefix (h : Meets letter name id r s) : r.ids <+: s.ids := by
  cases h with
  | known => exact List.prefix_refl _
  | new => exact List.prefix_append _ _

/-! ### The order of names -/

/-- The names of a roll are those that were met, in the order of their first appearance, and each has
an entity. -/
structure Enrolled (met : List Text) (r : Roll) : Prop where
  names : r.names.reverse.map Prod.fst = met.eraseDups
  ids : r.ids = r.names.reverse.map Prod.snd

namespace Enrolled

theorem mem_iff (h : Enrolled met r) : name ∈ r.names.map Prod.fst ↔ name ∈ met := by
  have hm : name ∈ r.names.reverse.map Prod.fst ↔ name ∈ met := by
    rw [h.names, List.mem_eraseDups]
  rwa [List.map_reverse, List.mem_reverse] at hm

theorem lookup?_eq_none_iff (h : Enrolled met r) : lookup? r.names name = none ↔ name ∉ met := by
  rw [lookup?_eq_none, h.mem_iff]

theorem nodup (h : Enrolled met r) : (r.names.map Prod.fst).Nodup := by
  have hd : (r.names.reverse.map Prod.fst).Nodup := h.names ▸ nodup_eraseDups met
  rwa [List.map_reverse, List.nodup_reverse] at hd

theorem mem_ids (h : Enrolled met r) (hname : lookup? r.names name = some id) : id ∈ r.ids := by
  rw [h.ids]
  exact List.mem_map.mpr ⟨_, List.mem_reverse.mpr (mem_of_lookup?_eq_some hname), rfl⟩

theorem meets (h : Enrolled met r) (hm : Meets letter name id r s) :
    Enrolled (met ++ [name]) s := by
  cases hm with
  | known hknown =>
    have hmem : name ∈ met := by
      by_contra hnot
      rw [h.lookup?_eq_none_iff.mpr hnot] at hknown
      cases hknown
    exact ⟨h.names.trans (eraseDups_concat_of_mem hmem).symm, h.ids⟩
  | new hnew =>
    have hnot : name ∉ met := h.lookup?_eq_none_iff.mp hnew
    constructor
    · rw [eraseDups_concat_of_not_mem hnot, ← h.names]
      simp
    · simp [h.ids]

end Enrolled

theorem Calls.enrolled (h : Calls letter r met s) (hr : Enrolled [] r) : Enrolled met s := by
  induction h with
  | done => exact hr
  | meet _ hm ih => exact ih.meets hm
  | draw _ ih => exact ⟨ih.names, ih.ids⟩
  | note _ _ _ ih => exact ⟨ih.names, ih.ids⟩

/-- The identifier of a name on a roll. -/
def idOf (r : Roll) (name : Text) : Nat := (lookup? r.names name).getD EntityId.missing

theorem idOf_eq (h : lookup? r.names name = some id) : r.idOf name = id := by
  rw [idOf, h, Option.getD_some]

/-- The entries of a roll, in order, are its names with their identifiers. -/
theorem Enrolled.reverse_names (h : Enrolled met r) :
    r.names.reverse = met.eraseDups.map fun name => (name, r.idOf name) := by
  rw [← h.names, List.map_map]
  refine (List.map_id' _).symm.trans (List.map_congr_left fun entry he => ?_)
  have hl : lookup? r.names entry.1 = some entry.2 :=
    (lookup?_eq_some h.nodup).mpr (List.mem_reverse.mp he)
  show entry = (entry.1, r.idOf entry.1)
  rw [idOf_eq hl]

theorem Enrolled.nodup_map_snd (h : Enrolled met r) (hd : r.ids.Nodup) :
    (r.names.map Prod.snd).Nodup := by
  rw [h.ids, List.map_reverse] at hd
  exact List.nodup_reverse.mp hd

theorem Enrolled.lookup?_idOf (h : Enrolled met r) (hname : name ∈ met) :
    lookup? r.names name = some (r.idOf name) := by
  cases hl : lookup? r.names name with
  | some id => rw [idOf_eq hl]
  | none => exact absurd hname (h.lookup?_eq_none_iff.mp hl)

/-- With distinct identifiers a name that was met has its own. -/
theorem Enrolled.lookup?_eq_idOf_iff (h : Enrolled met r) (hd : r.ids.Nodup) (hname : name ∈ met)
    (other : Text) : lookup? r.names other = some (r.idOf name) ↔ other = name := by
  constructor
  · intro hother
    have hentry := mem_of_lookup?_eq_some (h.lookup?_idOf hname)
    have hsame : (other, r.idOf name) = (name, r.idOf name) :=
      List.inj_on_of_nodup_map (h.nodup_map_snd hd) (mem_of_lookup?_eq_some hother) hentry rfl
    exact congrArg Prod.fst hsame
  · rintro rfl
    exact h.lookup?_idOf hname

theorem Enrolled.ids_eq (h : Enrolled met r) : r.ids = met.eraseDups.map r.idOf := by
  rw [h.ids, h.reverse_names, List.map_map]
  rfl

end Roll

/-! ### Identifiers that are handed out once -/

namespace Scope

variable {letter : Char} {name : Text} {k : Nat} {s t : Scope}

/-- A name is granted the identifier that it asks for, or it gets the next fresh one. -/
theorem allot_cases (s : Scope) (letter : Char) (name : Text) :
    (∃ id, literal? letter name = some id ∧ id ∉ s.reserved ∧ id ∉ s.claimed ∧
      (s.allot letter name).1 = id ∧ (s.allot letter name).2.claimed = id :: s.claimed ∧
      (s.allot letter name).2.next = if s.next ≤ id then EntityId.successor id else s.next) ∨
    ((∀ id, literal? letter name = some id → id ∈ s.reserved ∨ id ∈ s.claimed) ∧
      (s.allot letter name).1 = s.next ∧ (s.allot letter name).2.claimed = s.next :: s.claimed ∧
      (s.allot letter name).2.next = EntityId.successor s.next) := by
  unfold allot
  cases hl : literal? letter name with
  | none => exact .inr ⟨fun _ h => (nomatch h), rfl, rfl, rfl⟩
  | some id =>
    by_cases htaken : id ∈ s.reserved ∨ id ∈ s.claimed
    · right
      simp only [htaken, if_true]
      exact ⟨fun i hi => Option.some.inj hi ▸ htaken, rfl, rfl, rfl⟩
    · left
      simp only [htaken, if_false]
      obtain ⟨hr, hc⟩ := not_or.mp htaken
      exact ⟨id, rfl, hr, hc, rfl, rfl, rfl⟩

/-- No identifier was handed out twice, and none of those to come was handed out. -/
structure Apart (s : Scope) : Prop where
  distinct : s.claimed.Nodup
  below : ∀ id ∈ s.claimed, id < s.next

theorem Apart.claim (h : Apart s) {id : Nat} (hc : t.claimed = id :: s.claimed)
    (hnew : id ∉ s.claimed) (hid : id < t.next) (hgrows : s.next ≤ t.next) : Apart t := by
  constructor
  · rw [hc]
    exact List.nodup_cons.mpr ⟨hnew, h.distinct⟩
  · intro i hi
    rw [hc] at hi
    rcases List.mem_cons.mp hi with rfl | hi
    · exact hid
    · have hlt := h.below i hi
      omega

theorem apart_fresh (h : Apart s) (hn : s.fresh.2.next < EntityId.largest) : Apart s.fresh.2 := by
  have hnext : s.fresh.2.next = s.next + 1 := EntityId.successor_eq_of_lt hn
  have hnew : s.next ∉ s.claimed := fun hm => Nat.lt_irrefl _ (h.below s.next hm)
  have hc : s.fresh.2.claimed = s.next :: s.claimed := rfl
  exact h.claim hc hnew (by omega) (by omega)

theorem apart_allot (h : Apart s) (hn : (s.allot letter name).2.next < EntityId.largest) :
    Apart (s.allot letter name).2 := by
  rcases allot_cases s letter name with ⟨id, hl, -, hnew, -, hc, hnext⟩ | ⟨-, -, hc, hnext⟩
  · have hrange := literal?_inRange hl
    have hmax : EntityId.largestRead < EntityId.largest := by decide
    have hsucc : EntityId.successor id = id + 1 := EntityId.successor_eq (by have := hrange.2; omega)
    rw [hsucc] at hnext
    refine h.claim hc hnew ?_ ?_
    · rw [hnext]
      split <;> omega
    · rw [hnext]
      split <;> omega
  · rw [hnext] at hn
    have hsucc : EntityId.successor s.next = s.next + 1 := EntityId.successor_eq_of_lt hn
    have hnew : s.next ∉ s.claimed := fun hm => Nat.lt_irrefl _ (h.below s.next hm)
    exact h.claim hc hnew (by omega) (by omega)

/-- An identifier below those to come stays below them, though counting may come to its end. -/
theorem lt_successor (h : k < s.next) (hk : k < EntityId.largest) :
    k < EntityId.successor s.next := by
  unfold EntityId.successor
  omega

theorem lt_next_allot (h : k < s.next) (hk : k < EntityId.largest) :
    k < (s.allot letter name).2.next := by
  rcases allot_cases s letter name with ⟨id, -, -, -, -, -, hnext⟩ | ⟨-, -, -, hnext⟩
  · rw [hnext]
    unfold EntityId.successor
    split <;> omega
  · rw [hnext]
    exact lt_successor h hk

theorem not_mem_claimed_allot (h : k < s.next) (hc : k ∉ s.claimed)
    (hl : literal? letter name ≠ some k) : k ∉ (s.allot letter name).2.claimed := by
  rcases allot_cases s letter name with ⟨id, hid, -, -, -, hclaimed, -⟩ | ⟨-, -, hclaimed, -⟩
  · rw [hclaimed]
    refine List.not_mem_cons_of_ne_of_not_mem ?_ hc
    rintro rfl
    exact hl hid
  · rw [hclaimed]
    exact List.not_mem_cons_of_ne_of_not_mem (by omega) hc

theorem allot_eq (hl : literal? letter name = some k) (hr : k ∉ s.reserved) (hc : k ∉ s.claimed) :
    (s.allot letter name).1 = k := by
  rcases allot_cases s letter name with ⟨id, hid, -, -, hallot, -⟩ | ⟨htaken, -⟩
  · rw [hallot]
    exact Option.some.inj (hid.symm.trans hl)
  · exact absurd (htaken k hl) (not_or.mpr ⟨hr, hc⟩)

end Scope

namespace Roll

open Scope

variable {letter : Char} {name : Text} {id k : Nat} {met : List Text} {r s t : Roll}

/-- On the way to a scope that can still count, no identifier is handed out twice. -/
theorem Calls.apart (h : Calls letter r met s) (hn : s.scope.next < EntityId.largest) :
    r.scope.next ≤ s.scope.next ∧ (Apart r.scope → Apart s.scope) := by
  induction h with
  | done => exact ⟨Nat.le_refl _, fun hr => hr⟩
  | @meet met s t name id _ hm ih =>
    cases hm with
    | known => exact ih hn
    | new =>
      have hgrows := (grants_allot s.scope letter name).grows hn
      obtain ⟨hle, hs⟩ := ih (Nat.lt_of_le_of_lt hgrows hn)
      exact ⟨Nat.le_trans hle hgrows, fun hr => apart_allot (hs hr) hn⟩
  | @draw met s _ ih =>
    have hgrows := (grants_fresh s.scope).grows hn
    obtain ⟨hle, hs⟩ := ih (Nat.lt_of_le_of_lt hgrows hn)
    exact ⟨Nat.le_trans hle hgrows, fun hr => apart_fresh (hs hr) hn⟩
  | note _ message fields ih =>
    obtain ⟨hle, hs⟩ := ih hn
    exact ⟨hle, fun hr => ⟨(hs hr).distinct, (hs hr).below⟩⟩

/-- Entities that account for all identifiers of a scope do not share any, while counting goes on. -/
theorem Calls.nodup (h : Calls letter r met s) (hc : r.scope.claimed = [])
    (hn : s.scope.next < EntityId.largest) {ids : List Nat}
    (ha : Accounts r.scope [] s.scope ids) : ids.Nodup := by
  have hstart : Apart r.scope := by
    constructor
    · rw [hc]
      exact List.nodup_nil
    · rw [hc]
      intro id hid
      cases hid
  obtain ⟨granted, hgrants, hperm⟩ := ha
  rw [List.append_nil] at hperm
  have hclaimed : s.scope.claimed = granted := by
    rw [hgrants.claimed, hc, List.append_nil]
  have hdistinct := ((h.apart hn).2 hstart).distinct
  rw [hclaimed] at hdistinct
  exact hperm.nodup_iff.mpr hdistinct

/-! ### Identifiers that names ask for -/

/-- The identifier `k` is kept for the first name that asks for it. -/
structure Keeps (letter : Char) (k : Nat) (met : List Text) (r : Roll) : Prop where
  below : k < r.scope.next
  free : k ∉ r.scope.reserved
  unclaimed : (∀ name ∈ met, literal? letter name ≠ some k) → k ∉ r.scope.claimed
  granted : ∀ name, met.find? (fun other => literal? letter other = some k) = some name →
    lookup? r.names name = some k

theorem Keeps.draw (h : Keeps letter k met r) (hk : k < EntityId.largest) :
    Keeps letter k met { r with scope := r.scope.fresh.2 } where
  below := lt_successor h.below hk
  free := h.free
  unclaimed hnone := by
    have hlt := h.below
    exact List.not_mem_cons_of_ne_of_not_mem (by omega) (h.unclaimed hnone)
  granted := h.granted

theorem Keeps.meets (h : Keeps letter k met r) (hr : Enrolled met r) (hk : k < EntityId.largest)
    (hm : Meets letter name id r s) : Keeps letter k (met ++ [name]) s := by
  cases hm with
  | known hknown =>
    have hmem : name ∈ met := by
      by_contra hnot
      rw [hr.lookup?_eq_none_iff.mpr hnot] at hknown
      cases hknown
    refine ⟨h.below, h.free, fun hnone => h.unclaimed fun other ho => ?_, fun other ho => ?_⟩
    · exact hnone other (List.mem_append_left _ ho)
    · rw [List.find?_append] at ho
      cases hfind : met.find? (fun other => literal? letter other = some k) with
      | some first => exact h.granted other (by rw [hfind] at ho ⊢; exact ho)
      | none =>
        -- The name was met before, so it would have been found there.
        rw [hfind, Option.none_or, List.find?_singleton] at ho
        have hname := List.find?_eq_none.mp hfind name hmem
        rw [if_neg hname] at ho
        cases ho
  | new hnew hid =>
    have hreserved := (grants_allot r.scope letter name).reserved
    refine ⟨lt_next_allot h.below hk, hreserved ▸ h.free, fun hnone => ?_, fun other ho => ?_⟩
    · obtain ⟨hold, hname⟩ := List.forall_mem_append.mp hnone
      exact not_mem_claimed_allot h.below (h.unclaimed hold) (hname name List.mem_cons_self)
    · rw [List.find?_append] at ho
      cases hfind : met.find? (fun other => literal? letter other = some k) with
      | some first =>
        rw [hfind, Option.some_or] at ho
        exact lookup?_cons_of_some hnew (h.granted other (hfind.trans ho))
      | none =>
        rw [hfind, Option.none_or, List.find?_singleton] at ho
        split at ho
        · next hl =>
          cases ho
          have hunclaimed : k ∉ r.scope.claimed := h.unclaimed fun other hmem hother =>
            List.find?_eq_none.mp hfind other hmem (decide_eq_true hother)
          have hgrant := allot_eq (of_decide_eq_true hl) h.free hunclaimed
          rw [← hid, hgrant]
          exact lookup?_cons_self _ _ _
        · cases ho

theorem Calls.keeps (h : Calls letter r met s) (hr : Enrolled [] r) (hk : k < EntityId.largest)
    (hkeeps : Keeps letter k [] r) : Keeps letter k met s := by
  induction h with
  | done => exact hkeeps
  | meet h hm ih => exact ih.meets (h.enrolled hr) hk hm
  | draw _ ih => exact ih.draw hk
  | note _ _ _ ih => exact ⟨ih.below, ih.free, ih.unclaimed, ih.granted⟩

end Roll

/-! ### Entities made of names -/

/-- Entities that are made of the names of a roll, in order, by what was said of each name. -/
def Made {α β : Type} (make : Text → Option β → Nat → α) (names : List (Text × Nat))
    (said : Text → Option β) (xs : List α) : Prop :=
  xs = names.reverse.map fun entry => make entry.1 (said entry.1) entry.2

section Made

variable {α β : Type} {make : Text → Option β → Nat → α} {names : List (Text × Nat)}
  {said said' : Text → Option β} {xs : List α} {name : Text} {id : Nat}

theorem Made.new (h : Made make names said xs) (hnew : lookup? names name = none) (id : Nat)
    (hsaid : ∀ other, other ≠ name → said' other = said other) :
    Made make ((name, id) :: names) said' (xs ++ [make name (said' name) id]) := by
  unfold Made at h ⊢
  rw [List.reverse_cons, List.map_append, List.map_singleton, h]
  congr 1
  refine List.map_congr_left fun entry he => ?_
  have hmem : entry.1 ∈ names.map Prod.fst := List.mem_map_of_mem (List.mem_reverse.mp he)
  have hne : entry.1 ≠ name := by
    intro hname
    exact lookup?_eq_none.mp hnew (hname ▸ hmem)
  rw [hsaid entry.1 hne]

/-- What is said of a known name changes the entity of that name, and no other. -/
theorem Made.known [Entity α] (h : Made make names said xs) (hd : (names.map Prod.snd).Nodup)
    (hn : (names.map Prod.fst).Nodup) (hname : lookup? names name = some id)
    (hid : ∀ n s i, Entity.id (make n s i) = i) {f : α → α}
    (hf : ∀ s, f (make name s id) = make name (said' name) id)
    (hsaid : ∀ other, other ≠ name → said' other = said other) :
    Made make names said' (xs.map fun x => if Entity.id x = id then f x else x) := by
  have hentry : (name, id) ∈ names := mem_of_lookup?_eq_some hname
  unfold Made at h ⊢
  rw [h, List.map_map]
  refine List.map_congr_left fun entry he => ?_
  have hmem : entry ∈ names := List.mem_reverse.mp he
  rw [Function.comp_apply, hid]
  by_cases hi : entry.2 = id
  · have hsame : entry = (name, id) := List.inj_on_of_nodup_map hd hmem hentry hi
    rw [if_pos hi, hsame]
    exact hf _
  · have hne : entry.1 ≠ name := by
      intro hsame
      exact hi (congrArg Prod.snd (List.inj_on_of_nodup_map hn hmem hentry hsame))
    rw [if_neg hi, hsaid entry.1 hne]

end Made

end DiagramDoc.Dialect
