import DiagramDoc.Proofs.Text.Escaped

/-!
# Separators that are not escaped

A backslash escapes the character behind it unless it is escaped itself. So a character is escaped
when an odd number of backslashes stands directly before it, and a cut is made at the first separator
with an even number of them. The separators of an escaped field are all escaped: the one behind the
field is found, and fields that were joined are told apart again.
-/

namespace DiagramDoc.Text

/-- The backslashes at the end of a text are odd in number: the last one escapes what follows. -/
def EndsEscaping (t : Text) : Prop := (t.reverse.takeWhile (· == '\\')).length % 2 = 1

instance (t : Text) : Decidable (EndsEscaping t) := inferInstanceAs (Decidable (_ = _))

/-- A character stands nowhere in a text but where it is escaped. -/
def OnlyEscaped (c : Char) (t : Text) : Prop :=
  ∀ before after, t = before ++ c :: after → EndsEscaping before

theorem endsEscaping_append {s : Text} (h : (s.reverse.takeWhile (· == '\\')).length % 2 = 0)
    (t : Text) : EndsEscaping (s ++ t) ↔ EndsEscaping t := by
  unfold EndsEscaping
  rw [List.reverse_append, List.takeWhile_append]
  split
  · next hall => rw [List.length_append, ← hall]; omega
  · exact Iff.rfl

theorem endsEscaping_cons {c : Char} (h : c ≠ '\\') (t : Text) :
    EndsEscaping (c :: t) ↔ EndsEscaping t :=
  endsEscaping_append (s := [c]) (by simp [h]) t

/-- An escape has a backslash in front, or it is two of them. -/
theorem endsEscaping_escaped (c : Char) (t : Text) :
    EndsEscaping ('\\' :: c :: t) ↔ EndsEscaping t := by
  have hpair : (['\\', c].reverse.takeWhile (· == '\\')).length % 2 = 0 := by
    by_cases hc : c = '\\' <;> simp [hc]
  exact endsEscaping_append hpair t

theorem not_endsEscaping_nil : ¬ EndsEscaping [] := by decide

theorem endsEscaping_backslash : EndsEscaping ['\\'] := by decide

section Separator

variable {sep c : Char} {t before after : Text}

theorem onlyEscaped_nil (sep : Char) : OnlyEscaped sep [] := by
  intro before after h
  cases before <;> cases h

theorem onlyEscaped_cons (hc : c ≠ '\\') :
    OnlyEscaped sep (c :: t) ↔ c ≠ sep ∧ OnlyEscaped sep t := by
  constructor
  · intro h
    refine ⟨?_, fun before after ht => ?_⟩
    · rintro rfl
      exact not_endsEscaping_nil (h [] t rfl)
    · rw [← endsEscaping_cons hc]
      exact h (c :: before) after (by rw [ht]; rfl)
  · rintro ⟨hne, h⟩ before after ht
    cases before with
    | nil => exact absurd (List.cons.inj ht).1 hne
    | cons d before =>
      obtain ⟨rfl, rfl⟩ := List.cons.inj ht
      exact (endsEscaping_cons hc before).mpr (h before after rfl)

theorem onlyEscaped_escaped (hs : sep ≠ '\\') :
    OnlyEscaped sep ('\\' :: c :: t) ↔ OnlyEscaped sep t := by
  constructor
  · intro h before after ht
    rw [← endsEscaping_escaped c]
    exact h ('\\' :: c :: before) after (by rw [ht]; rfl)
  · rintro h before after ht
    cases before with
    | nil => exact absurd (List.cons.inj ht).1.symm hs
    | cons d before =>
      obtain ⟨rfl, htail⟩ := List.cons.inj ht
      cases before with
      | nil => exact endsEscaping_backslash
      | cons d before =>
        obtain ⟨rfl, rfl⟩ := List.cons.inj htail
        exact (endsEscaping_escaped c before).mpr (h before after rfl)

theorem onlyEscaped_lone_backslash (hs : sep ≠ '\\') : OnlyEscaped sep ['\\'] := by
  intro before after h
  cases before with
  | nil => exact absurd (List.cons.inj h).1.symm hs
  | cons d before => exact absurd (List.cons.inj h).2.symm (by simp)

theorem unescaped_of_cutUnescaped? (hs : sep ≠ '\\')
    (h : cutUnescaped? sep t = some (before, after)) :
    OnlyEscaped sep before ∧ ¬ EndsEscaping before := by
  induction t using cutUnescaped?.induct sep generalizing before with
  | case1 c rest ih =>
    rw [cutUnescaped?_escaped] at h
    obtain ⟨⟨b, a⟩, hcut, hp⟩ := Option.map_eq_some_iff.mp h
    cases hp
    rw [onlyEscaped_escaped hs, endsEscaping_escaped]
    exact ih hcut
  | case2 rest hc =>
    rw [cutUnescaped?_cons hs, if_pos rfl] at h
    cases h
    exact ⟨onlyEscaped_nil sep, not_endsEscaping_nil⟩
  | case3 c rest hc hne ih =>
    rw [cutUnescaped?.eq_2 sep c rest hc, if_neg hne] at h
    obtain ⟨⟨b, a⟩, hcut, hp⟩ := Option.map_eq_some_iff.mp h
    cases hp
    have hc : c ≠ '\\' := by
      rintro rfl
      cases rest with
      | nil => cases hcut
      | cons d rest => exact hc d rest rfl rfl
    rw [onlyEscaped_cons hc, endsEscaping_cons hc]
    exact ⟨⟨hne, (ih hcut).1⟩, (ih hcut).2⟩
  | case4 => cases h

theorem cutUnescaped?_append_cons (hs : sep ≠ '\\') (hb : OnlyEscaped sep before)
    (he : ¬ EndsEscaping before) (after : Text) :
    cutUnescaped? sep (before ++ sep :: after) = some (before, after) := by
  induction before using cutUnescaped?.induct sep with
  | case1 c rest ih =>
    rw [onlyEscaped_escaped hs] at hb
    rw [endsEscaping_escaped] at he
    rw [List.cons_append, List.cons_append, cutUnescaped?_escaped, ih hb he]
    rfl
  | case2 rest hc => exact absurd rfl ((onlyEscaped_cons hs).mp hb).1
  | case3 c rest hc hne ih =>
    have hc : c ≠ '\\' := by
      rintro rfl
      cases rest with
      | nil => exact he endsEscaping_backslash
      | cons d rest => exact hc d rest rfl rfl
    rw [endsEscaping_cons hc] at he
    rw [List.cons_append, cutUnescaped?_cons hc, if_neg hne,
      ih ((onlyEscaped_cons hc).mp hb).2 he]
    rfl
  | case4 => rw [List.nil_append, cutUnescaped?_cons hs, if_pos rfl]

/-- A cut is made at the first separator that is not escaped. -/
theorem cutUnescaped?_eq_some_iff (hs : sep ≠ '\\') :
    cutUnescaped? sep t = some (before, after) ↔
      t = before ++ sep :: after ∧ OnlyEscaped sep before ∧ ¬ EndsEscaping before := by
  constructor
  · exact fun h => ⟨eq_append_of_cutUnescaped? h, unescaped_of_cutUnescaped? hs h⟩
  · rintro ⟨rfl, hb, he⟩
    exact cutUnescaped?_append_cons hs hb he after

theorem onlyEscaped_of_cutUnescaped? (hs : sep ≠ '\\') (h : cutUnescaped? sep t = none) :
    OnlyEscaped sep t := by
  induction t using cutUnescaped?.induct sep with
  | case1 c rest ih =>
    rw [cutUnescaped?_escaped] at h
    exact (onlyEscaped_escaped hs).mpr (ih (Option.map_eq_none_iff.mp h))
  | case2 rest hc =>
    rw [cutUnescaped?_cons hs, if_pos rfl] at h
    cases h
  | case3 c rest hc hne ih =>
    rw [cutUnescaped?.eq_2 sep c rest hc, if_neg hne] at h
    have hrest := ih (Option.map_eq_none_iff.mp h)
    by_cases hb : c = '\\'
    · subst hb
      -- With nothing behind it a backslash escapes nothing.
      cases rest with
      | nil => exact onlyEscaped_lone_backslash hs
      | cons d rest => exact absurd rfl (hc d rest rfl)
    · exact (onlyEscaped_cons hb).mpr ⟨hne, hrest⟩
  | case4 => exact onlyEscaped_nil sep

/-- Nothing is cut where every separator is escaped. -/
theorem cutUnescaped?_eq_none_iff (hs : sep ≠ '\\') :
    cutUnescaped? sep t = none ↔ OnlyEscaped sep t := by
  refine ⟨onlyEscaped_of_cutUnescaped? hs, fun h => ?_⟩
  refine Option.eq_none_iff_forall_not_mem.mpr fun ⟨before, after⟩ hcut => ?_
  obtain ⟨ht, -, hend⟩ := (cutUnescaped?_eq_some_iff hs).mp hcut
  exact hend (h before after ht)

/-- A text is cut into fields at all its separators that are not escaped. -/
inductive Fields (sep : Char) : Text → List Text → Prop
  | last {t : Text} (h : OnlyEscaped sep t) : Fields sep t [t]
  | cons {before after : Text} {fields : List Text} (hb : OnlyEscaped sep before)
      (he : ¬ EndsEscaping before) (h : Fields sep after fields) :
      Fields sep (before ++ sep :: after) (before :: fields)

theorem fields_splitUnescaped (hs : sep ≠ '\\') (t : Text) :
    Fields sep t (splitUnescaped sep t) := by
  induction hn : t.length using Nat.strongRecOn generalizing t with
  | ind n ih =>
    cases hcut : cutUnescaped? sep t with
    | none =>
      rw [splitUnescaped_of_none hcut]
      exact .last ((cutUnescaped?_eq_none_iff hs).mp hcut)
    | some cut =>
      obtain ⟨before, after⟩ := cut
      obtain ⟨rfl, hb, he⟩ := (cutUnescaped?_eq_some_iff hs).mp hcut
      rw [splitUnescaped_of_some hcut]
      refine .cons hb he (ih after.length ?_ after rfl)
      rw [← hn, List.length_append, List.length_cons]
      omega

/-- Splitting finds the fields between the separators that are not escaped, and there is only one
way to tell them apart. -/
theorem splitUnescaped_eq_iff (hs : sep ≠ '\\') {fields : List Text} :
    splitUnescaped sep t = fields ↔ Fields sep t fields := by
  constructor
  · rintro rfl
    exact fields_splitUnescaped hs t
  · intro h
    induction h with
    | last h => exact splitUnescaped_of_none ((cutUnescaped?_eq_none_iff hs).mpr h)
    | cons hb he _ ih => rw [splitUnescaped_of_some (cutUnescaped?_append_cons hs hb he _), ih]

end Separator

/-! ### Escaped fields between separators -/

theorem splitUnescaped_join_escapeFor {seps : List Char} {sep : Char}
    (hs : sep = '"' ∨ sep = '|' ∨ sep ∈ seps) (hb : sep ≠ '\\') (field : Text)
    (fields : List Text) :
    splitUnescaped sep (join [sep] ((field :: fields).map (escapeFor seps))) =
      (field :: fields).map (escapeFor seps) := by
  induction fields generalizing field with
  | nil =>
    rw [List.map_singleton, join_singleton,
      splitUnescaped_of_none (cutUnescaped?_escapeFor_eq_none hs field)]
  | cons next fields ih =>
    rw [List.map_cons, List.map_cons, join_cons_cons, List.singleton_append,
      splitUnescaped_of_some (cutUnescaped?_escapeFor hs hb field _), ← List.map_cons, ih]

/-- Escaping for colons and commas is undone by reading, line breaks apart, and leaves no line feed.
The end of a field is found at any separator, and so are the ends of all fields in a row. -/
theorem escapeFor_codec {seps : List Char} (hseps : ∀ sep ∈ seps, sep = ':' ∨ sep = ',') (t : Text) :
    unescape (escapeFor seps t) = unifyBreaks t ∧
      '\n' ∉ escapeFor seps t ∧
      (∀ sep, sep ∈ seps ∨ sep = '"' ∨ sep = '|' → ∀ rest,
        cutUnescaped? sep (escapeFor seps t ++ sep :: rest) = some (escapeFor seps t, rest)) ∧
      ∀ sep ∈ seps, ∀ fields : List Text, fields ≠ [] →
        splitUnescaped sep (join [sep] (fields.map (escapeFor seps))) =
          fields.map (escapeFor seps) := by
  have hmeaning : ∀ sep ∈ seps, escapeMeaning? sep = some sep := by
    intro sep hsep
    rcases hseps sep hsep with rfl | rfl <;> decide
  have hne : ∀ sep, sep ∈ seps ∨ sep = '"' ∨ sep = '|' → sep ≠ '\\' := by
    rintro sep (hsep | rfl | rfl)
    · rcases hseps sep hsep with rfl | rfl <;> decide
    · decide
    · decide
  refine ⟨unescape_escapeFor hmeaning t, lineFeed_not_mem_escapeFor t, ?_, ?_⟩
  · intro sep hsep rest
    have hor : sep = '"' ∨ sep = '|' ∨ sep ∈ seps := or_rotate.mp hsep
    exact cutUnescaped?_escapeFor hor (hne sep hsep) t rest
  · intro sep hsep fields hfields
    obtain ⟨field, fields, rfl⟩ := List.exists_cons_of_ne_nil hfields
    exact splitUnescaped_join_escapeFor (.inr (.inr hsep)) (hne sep (.inl hsep)) field fields

/-- A backslash before a separator, one at the end, a carriage return that stays and one that goes. -/
def bristly : Text := "a\\:b, \"c|\"\r\r\n\\n:\\".toList

theorem escapeFor_codec_bristly :
    escapeFor [':', ','] bristly = "a\\\\\\:b\\, \\\"c\\|\\\"\r\\n\\\\n\\:\\\\".toList ∧
      unescape (escapeFor [':', ','] bristly) = "a\\:b, \"c|\"\r\n\\n:\\".toList ∧
      '\n' ∉ escapeFor [':', ','] bristly ∧
      cutUnescaped? '|' (escapeFor [':', ','] bristly ++ "|b|".toList) =
        some (escapeFor [':', ','] bristly, "b|".toList) ∧
      cutUnescaped? ':' (escapeFor [':', ','] bristly ++ ":b".toList) =
        some (escapeFor [':', ','] bristly, "b".toList) ∧
      splitUnescaped ',' (join [','] ([bristly, [], bristly].map (escapeFor [':', ',']))) =
        [bristly, [], bristly].map (escapeFor [':', ',']) := by
  have hseps : ∀ sep ∈ [':', ','], sep = ':' ∨ sep = ',' := by simp
  obtain ⟨hread, hfeed, hcut, hsplit⟩ := escapeFor_codec hseps bristly
  refine ⟨by decide, hread.trans (by decide), hfeed, ?_, ?_, ?_⟩
  · exact hcut '|' (.inr (.inr rfl)) "b|".toList
  · exact hcut ':' (.inl (by decide)) "b".toList
  · exact hsplit ',' (by decide) [bristly, [], bristly] (by decide)

end DiagramDoc.Text
