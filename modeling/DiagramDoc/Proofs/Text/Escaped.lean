import DiagramDoc.Proofs.Text.Trim
import DiagramDoc.Text.Escaped

/-!
# Escaping and reading back

A field that was escaped reads back as itself up to line breaks. It holds no line feed, and no
separator of its line that is not behind a backslash.
-/

namespace DiagramDoc.Text

theorem unescape_meaning {c m : Char} (h : escapeMeaning? c = some m) (rest : Text) :
    unescape ('\\' :: c :: rest) = m :: unescape rest := by
  rw [unescape, h]

theorem unescape_cons {c : Char} (h : c ≠ '\\') (rest : Text) :
    unescape (c :: rest) = c :: unescape rest := by
  rw [unescape]
  intro _ _ hc _
  exact h hc

theorem cutUnescaped?_escaped (sep c : Char) (rest : Text) :
    cutUnescaped? sep ('\\' :: c :: rest) =
      (cutUnescaped? sep rest).map fun (before, after) => ('\\' :: c :: before, after) := by
  rw [cutUnescaped?]

theorem cutUnescaped?_cons {sep c : Char} (h : c ≠ '\\') (rest : Text) :
    cutUnescaped? sep (c :: rest) =
      if c = sep then some ([], rest)
      else (cutUnescaped? sep rest).map fun (before, after) => (c :: before, after) := by
  rw [cutUnescaped?]
  intro _ _ hc _
  exact h hc

section Escape

variable {seps : List Char}

/-- What escaping makes of the first character of a text. -/
inductive EscapeCase (seps : List Char) (c : Char) (t : Text) : Prop where
  | dropped (hc : c = '\r') (ht : t.head? = some '\n')
      (he : escapeFor seps (c :: t) = escapeFor seps t)
  | lineBreak (hc : c = '\n') (he : escapeFor seps (c :: t) = '\\' :: 'n' :: escapeFor seps t)
  | marked (hc : c = '\\' ∨ c = '"' ∨ c = '|' ∨ c ∈ seps) (hn : c ≠ '\n')
      (hr : ¬ (c = '\r' ∧ t.head? = some '\n'))
      (he : escapeFor seps (c :: t) = '\\' :: c :: escapeFor seps t)
  | plain (hb : c ≠ '\\') (hq : c ≠ '"') (hv : c ≠ '|') (hs : c ∉ seps) (hn : c ≠ '\n')
      (hr : ¬ (c = '\r' ∧ t.head? = some '\n'))
      (he : escapeFor seps (c :: t) = c :: escapeFor seps t)

theorem escapeCase (seps : List Char) (c : Char) (t : Text) : EscapeCase seps c t := by
  by_cases hmark : c = '\\' ∨ c = '"' ∨ c = '|'
  · have hn : c ≠ '\n' := by rcases hmark with rfl | rfl | rfl <;> decide
    have hr : ¬ (c = '\r' ∧ t.head? = some '\n') := by
      rcases hmark with rfl | rfl | rfl <;> exact fun h => absurd h.1 (by decide)
    refine .marked (hmark.imp_right (.imp_right .inl)) hn hr ?_
    rw [escapeFor, if_pos hmark]
  · have hm : c ≠ '\\' ∧ c ≠ '"' ∧ c ≠ '|' := by simpa only [not_or] using hmark
    by_cases hn : c = '\n'
    · refine .lineBreak hn ?_
      rw [escapeFor, if_neg hmark, if_pos hn]
    · by_cases hr : c = '\r' ∧ t.head? = some '\n'
      · refine .dropped hr.1 hr.2 ?_
        rw [escapeFor, if_neg hmark, if_neg hn, if_pos hr]
      · by_cases hs : c ∈ seps
        · refine .marked (.inr (.inr (.inr hs))) hn hr ?_
          rw [escapeFor, if_neg hmark, if_neg hn, if_neg hr, if_pos hs]
        · refine .plain hm.1 hm.2.1 hm.2.2 hs hn hr ?_
          rw [escapeFor, if_neg hmark, if_neg hn, if_neg hr, if_neg hs]

theorem unifyBreaks_cons {c : Char} {t : Text} (h : ¬ (c = '\r' ∧ t.head? = some '\n')) :
    unifyBreaks (c :: t) = c :: unifyBreaks t := by
  rw [unifyBreaks, if_neg h]

theorem escapeMeaning?_of_marked (hs : ∀ c ∈ seps, escapeMeaning? c = some c) {c : Char}
    (h : c = '\\' ∨ c = '"' ∨ c = '|' ∨ c ∈ seps) : escapeMeaning? c = some c := by
  rcases h with rfl | rfl | rfl | h
  · decide
  · decide
  · decide
  · exact hs c h

/-- A field reads back with its line breaks unified. -/
theorem unescape_escapeFor (hs : ∀ c ∈ seps, escapeMeaning? c = some c) (t : Text) :
    unescape (escapeFor seps t) = unifyBreaks t := by
  induction t with
  | nil => rfl
  | cons c t ih =>
    cases escapeCase seps c t with
    | dropped hc ht he => rw [he, ih, unifyBreaks, if_pos ⟨hc, ht⟩]
    | lineBreak hc he =>
      have hr : ¬ (c = '\r' ∧ t.head? = some '\n') := by
        rw [hc]
        exact fun h => absurd h.1 (by decide)
      rw [he, unescape_meaning (m := '\n') (by decide), ih, unifyBreaks_cons hr, hc]
    | marked hc hn hr he =>
      rw [he, unescape_meaning (escapeMeaning?_of_marked hs hc), ih, unifyBreaks_cons hr]
    | plain hb hq hv hsep hn hr he => rw [he, unescape_cons hb, ih, unifyBreaks_cons hr]

theorem lineFeed_not_mem_escapeFor (t : Text) : '\n' ∉ escapeFor seps t := by
  induction t with
  | nil => exact List.not_mem_nil
  | cons c t ih =>
    cases escapeCase seps c t with
    | dropped hc ht he =>
      rw [he]
      exact ih
    | lineBreak hc he =>
      rw [he]
      simp [ih]
    | marked hc hn hr he =>
      rw [he]
      simp [ih, Ne.symm hn]
    | plain hb hq hv hsep hn hr he =>
      rw [he]
      simp [ih, Ne.symm hn]

theorem escapeFor_eq_nil {t : Text} : escapeFor seps t = [] ↔ t = [] := by
  constructor
  · intro h
    induction t with
    | nil => rfl
    | cons c t ih =>
      cases escapeCase seps c t with
      | dropped hc ht he =>
        rw [ih (he ▸ h)] at ht
        cases ht
      | lineBreak hc he => exact absurd (he ▸ h) (List.cons_ne_nil _ _)
      | marked hc hn hr he => exact absurd (he ▸ h) (List.cons_ne_nil _ _)
      | plain hb hq hv hsep hn hr he => exact absurd (he ▸ h) (List.cons_ne_nil _ _)
  · rintro rfl
    rfl

/-- A field is not cut at a separator of its line; the search goes on behind it. -/
theorem cutUnescaped?_escapeFor_append {sep : Char} (hs : sep = '"' ∨ sep = '|' ∨ sep ∈ seps)
    (t rest : Text) :
    cutUnescaped? sep (escapeFor seps t ++ rest) =
      (cutUnescaped? sep rest).map fun (before, after) => (escapeFor seps t ++ before, after) := by
  induction t with
  | nil => exact Option.map_id'.symm
  | cons c t ih =>
    cases escapeCase seps c t with
    | dropped hc ht he => rw [he, ih]
    | lineBreak hc he =>
      rw [he, List.cons_append, List.cons_append, cutUnescaped?_escaped, ih, Option.map_map]
      rfl
    | marked hc hn hr he =>
      rw [he, List.cons_append, List.cons_append, cutUnescaped?_escaped, ih, Option.map_map]
      rfl
    | plain hc hq hv hsep hn hr he =>
      have hne : c ≠ sep := by
        rintro rfl
        rcases hs with h | h | h
        · exact hq h
        · exact hv h
        · exact hsep h
      rw [he, List.cons_append, cutUnescaped?_cons hc, if_neg hne, ih, Option.map_map]
      rfl

/-- Cutting at a separator behind a field cuts nowhere in the field. -/
theorem cutUnescaped?_escapeFor {sep : Char} (hs : sep = '"' ∨ sep = '|' ∨ sep ∈ seps)
    (hb : sep ≠ '\\') (t rest : Text) :
    cutUnescaped? sep (escapeFor seps t ++ sep :: rest) = some (escapeFor seps t, rest) := by
  rw [cutUnescaped?_escapeFor_append hs, cutUnescaped?_cons hb, if_pos rfl, Option.map_some]
  dsimp only
  rw [List.append_nil]

theorem cutUnescaped?_escapeFor_eq_none {sep : Char} (hs : sep = '"' ∨ sep = '|' ∨ sep ∈ seps)
    (t : Text) : cutUnescaped? sep (escapeFor seps t) = none := by
  have h := cutUnescaped?_escapeFor_append hs t []
  rw [List.append_nil] at h
  rw [h]
  rfl

end Escape

theorem unescape_escape (t : Text) : unescape (escape t) = unifyBreaks t := by
  have hs : ∀ c ∈ ([] : List Char), escapeMeaning? c = some c := by
    intro c hc
    cases hc
  exact unescape_escapeFor hs t

/-! ### What unescaping leaves alone -/

theorem unescape_unknown {c : Char} (h : escapeMeaning? c = none) (rest : Text) :
    unescape ('\\' :: c :: rest) = '\\' :: c :: unescape rest := by
  rw [unescape, h]

/-- The characters that an escape may stand for. -/
def escapable : List Char := ['\\', '"', '|', ':', ',', '\n']

theorem mem_escapable {c m : Char} (h : escapeMeaning? c = some m) :
    m ∈ escapable ∧ (m = c ∨ m = '\n') := by
  unfold escapeMeaning? at h
  split at h
  · next hc =>
    obtain rfl : c = m := Option.some.inj h
    refine ⟨?_, .inl rfl⟩
    rcases hc with rfl | rfl | rfl | rfl | rfl <;> decide
  · split at h
    · obtain rfl : '\n' = m := Option.some.inj h
      exact ⟨by decide, .inr rfl⟩
    · cases h

theorem mem_unescape {c : Char} {t : Text} (h : c ∈ unescape t) : c = '\n' ∨ c ∈ t := by
  induction t using unescape.induct with
  | case1 d rest m hm ih =>
    rw [unescape_meaning hm] at h
    rcases List.mem_cons.mp h with rfl | h
    · rcases (mem_escapable hm).2 with rfl | rfl
      · exact .inr (by simp)
      · exact .inl rfl
    · exact (ih h).imp_right fun h => by simp [h]
  | case2 d rest hm ih =>
    rw [unescape_unknown hm] at h
    rcases List.mem_cons.mp h with rfl | h
    · exact .inr (by simp)
    · rcases List.mem_cons.mp h with rfl | h
      · exact .inr (by simp)
      · exact (ih h).imp_right fun h => by simp [h]
  | case3 d rest hd ih =>
    rw [unescape.eq_2 d rest hd] at h
    rcases List.mem_cons.mp h with rfl | h
    · exact .inr (by simp)
    · exact (ih h).imp_right fun h => by simp [h]
  | case4 => cases h

theorem unescape_eq_nil {t : Text} : unescape t = [] ↔ t = [] := by
  constructor
  · intro h
    induction t using unescape.induct with
    | case1 c rest m hm ih =>
      rw [unescape_meaning hm] at h
      cases h
    | case2 c rest hm ih =>
      rw [unescape_unknown hm] at h
      cases h
    | case3 c rest hc ih =>
      rw [unescape.eq_2 c rest hc] at h
      cases h
    | case4 => rfl
  · rintro rfl
    rfl

/-- Text that no escape stands for is only found where it stands itself. -/
theorem unescape_eq_append {s t u : Text} (h : ∀ c ∈ s, c ∉ escapable) :
    unescape t = s ++ u ↔ ∃ v, t = s ++ v ∧ unescape v = u := by
  induction s generalizing t with
  | nil =>
    constructor
    · exact fun ht => ⟨t, rfl, ht⟩
    · rintro ⟨v, rfl, hv⟩
      exact hv
  | cons c s ih =>
    obtain ⟨hc, hs⟩ := List.forall_mem_cons.mp h
    have hb : c ≠ '\\' := by
      rintro rfl
      exact hc (by decide)
    constructor
    · intro ht
      rw [List.cons_append] at ht
      cases t using unescape.fun_cases with
      | case1 d rest m hm =>
        rw [unescape_meaning hm] at ht
        exact absurd ((List.cons.inj ht).1 ▸ (mem_escapable hm).1) hc
      | case2 d rest hm =>
        rw [unescape_unknown hm] at ht
        exact absurd (List.cons.inj ht).1.symm hb
      | case3 d rest hd =>
        rw [unescape.eq_2 d rest hd] at ht
        obtain ⟨rfl, htail⟩ := List.cons.inj ht
        obtain ⟨v, rfl, hv⟩ := (ih hs).mp htail
        exact ⟨v, rfl, hv⟩
      | case4 => cases ht
    · rintro ⟨v, rfl, rfl⟩
      rw [List.cons_append, unescape_cons hb, (ih hs).mpr ⟨v, rfl, rfl⟩, List.cons_append]

/-! ### Pieces -/

theorem splitUnescaped_of_some {sep : Char} {t before after : Text}
    (h : cutUnescaped? sep t = some (before, after)) :
    splitUnescaped sep t = before :: splitUnescaped sep after := by
  induction t using cutUnescaped?.induct sep generalizing before with
  | case1 c rest ih =>
    rw [cutUnescaped?_escaped] at h
    obtain ⟨⟨b, a⟩, hcut, hp⟩ := Option.map_eq_some_iff.mp h
    cases hp
    rw [splitUnescaped, ih hcut]
    rfl
  | case2 rest hc =>
    rw [cutUnescaped?.eq_2 sep sep rest hc, if_pos rfl] at h
    cases h
    rw [splitUnescaped.eq_2 sep sep _ hc, if_pos rfl]
  | case3 c rest hc hne ih =>
    rw [cutUnescaped?.eq_2 sep c rest hc, if_neg hne] at h
    obtain ⟨⟨b, a⟩, hcut, hp⟩ := Option.map_eq_some_iff.mp h
    cases hp
    rw [splitUnescaped.eq_2 sep c rest hc, if_neg hne, ih hcut]
    rfl
  | case4 => cases h

theorem splitUnescaped_of_none {sep : Char} {t : Text} (h : cutUnescaped? sep t = none) :
    splitUnescaped sep t = [t] := by
  induction t using cutUnescaped?.induct sep with
  | case1 c rest ih =>
    rw [cutUnescaped?_escaped] at h
    rw [splitUnescaped, ih (Option.map_eq_none_iff.mp h)]
    rfl
  | case2 rest hc =>
    rw [cutUnescaped?.eq_2 sep sep rest hc, if_pos rfl] at h
    cases h
  | case3 c rest hc hne ih =>
    rw [cutUnescaped?.eq_2 sep c rest hc, if_neg hne] at h
    rw [splitUnescaped.eq_2 sep c rest hc, if_neg hne, ih (Option.map_eq_none_iff.mp h)]
    rfl
  | case4 => rfl

theorem eq_append_of_cutUnescaped? {sep : Char} {t before after : Text}
    (h : cutUnescaped? sep t = some (before, after)) : t = before ++ sep :: after := by
  induction t using cutUnescaped?.induct sep generalizing before with
  | case1 c rest ih =>
    rw [cutUnescaped?_escaped] at h
    obtain ⟨⟨b, a⟩, hcut, hp⟩ := Option.map_eq_some_iff.mp h
    cases hp
    rw [ih hcut]
    rfl
  | case2 rest hc =>
    rw [cutUnescaped?.eq_2 sep sep rest hc, if_pos rfl] at h
    cases h
    rfl
  | case3 c rest hc hne ih =>
    rw [cutUnescaped?.eq_2 sep c rest hc, if_neg hne] at h
    obtain ⟨⟨b, a⟩, hcut, hp⟩ := Option.map_eq_some_iff.mp h
    cases hp
    rw [ih hcut]
    rfl
  | case4 => cases h

theorem mem_of_mem_splitUnescaped (sep : Char) (t : Text) :
    ∀ piece ∈ splitUnescaped sep t, ∀ c ∈ piece, c ∈ t := by
  induction t using splitUnescaped.induct sep with
  | case1 d rest ih =>
    rw [splitUnescaped]
    exact forall_mem_consHead (forall_mem_consHead ih)
  | case2 rest hd ih =>
    rw [splitUnescaped.eq_2 sep sep rest hd, if_pos rfl]
    refine List.forall_mem_cons.mpr ⟨fun c hc => absurd hc List.not_mem_nil, fun p hp c hc => ?_⟩
    exact List.mem_cons_of_mem _ (ih p hp c hc)
  | case3 d rest hd hne ih =>
    rw [splitUnescaped.eq_2 sep d rest hd, if_neg hne]
    exact forall_mem_consHead ih
  | case4 => exact List.forall_mem_singleton.mpr fun c hc => hc

end DiagramDoc.Text
