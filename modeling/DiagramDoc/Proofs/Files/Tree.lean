import DiagramDoc.Files.Tree
import Mathlib.Data.List.DropRight

/-!
# Paths in a changed tree

Where a path leads depends on the folders of a tree, and on nothing else before its last step. So
the file that a path names is found again once it was written, a file is found under its new name
once it was renamed, and a tree is what it was when a new file is removed again.
-/

namespace DiagramDoc.Tree

variable {t u : Tree} {place : Place}

/-! ### Places after a change -/

theorem lookup_filter_ne {entries : List (Place × Entry)} {p q : Place} (h : q ≠ p) :
    (entries.filter fun e => e.1 ≠ p).lookup q = entries.lookup q := by
  induction entries with
  | nil => rfl
  | cons e entries ih =>
    obtain ⟨r, entry⟩ := e
    by_cases hr : r = p
    · subst hr
      rw [List.filter_cons_of_neg (by simp), ih, List.lookup_cons, beq_false_of_ne h]
    · rw [List.filter_cons_of_pos (by simpa using hr), List.lookup_cons, List.lookup_cons, ih]

theorem at?_erase {q : Place} (h : q ≠ place) : (t.erase place).at? q = t.at? q := by
  unfold at? erase
  rw [lookup_filter_ne h]

theorem at?_erase_self (h : place ≠ []) : (t.erase place).at? place = none := by
  unfold at? erase
  rw [if_neg h, List.lookup_eq_none_iff]
  intro e he
  have hne : e.1 ≠ place := of_decide_eq_true (List.mem_filter.mp he).2
  exact bne_iff_ne.mpr hne.symm

theorem at?_put {q : Place} (h : q ≠ place) (entry : Entry) :
    (t.put place entry).at? q = t.at? q := by
  have hrest : (t.erase place).at? q = t.at? q := at?_erase h
  rw [← hrest]
  unfold put at?
  rw [List.lookup_cons, beq_false_of_ne h]

theorem at?_put_self (h : place ≠ []) (entry : Entry) :
    (t.put place entry).at? place = some entry := by
  unfold at? put
  rw [if_neg h]
  exact List.lookup_cons_self

theorem erase_eq_self (h : t.at? place = none) : t.erase place = t := by
  obtain ⟨entries⟩ := t
  have hn : place ≠ [] := by
    rintro rfl
    cases h
  unfold at? at h
  rw [if_neg hn, List.lookup_eq_none_iff] at h
  unfold erase
  rw [List.filter_eq_self.mpr fun e he => decide_eq_true (Ne.symm (bne_iff_ne.mp (h e he)))]

theorem erase_put (entry : Entry) : (t.put place entry).erase place = t.erase place := by
  unfold put erase
  rw [List.filter_cons_of_neg (by simp), List.filter_filter]
  simp only [Bool.and_self]

theorem put_put (old new : Entry) : (t.put place old).put place new = t.put place new := by
  change (⟨(place, new) :: ((t.put place old).erase place).entries⟩ : Tree) = _
  rw [erase_put]
  rfl

/-! ### Where a path leads -/

/-- From a folder, segments lead to a place and to what is there. -/
inductive Leads (t : Tree) : Place → List Text → Place → Entry → Prop
  | here (place : Place) : Leads t place [] place .folder
  | idle {place q : Place} {segment : Text} {rest : List Text} {entry : Entry}
      (hs : Path.isIdle segment = true) (h : Leads t place rest q entry) :
      Leads t place (segment :: rest) q entry
  | up {place q : Place} {segment : Text} {rest : List Text} {entry : Entry}
      (hs : Path.isIdle segment = false) (hd : Path.isDoubleDot segment = true)
      (h : Leads t place.dropLast rest q entry) : Leads t place (segment :: rest) q entry
  | down {place q : Place} {segment : Text} {rest : List Text} {entry : Entry}
      (hs : Path.isIdle segment = false) (hd : Path.isDoubleDot segment = false)
      (ha : t.at? (place ++ [segment]) = some .folder)
      (h : Leads t (place ++ [segment]) rest q entry) : Leads t place (segment :: rest) q entry
  | file {place : Place} {segment : Text} {content : Content}
      (hs : Path.isIdle segment = false) (hd : Path.isDoubleDot segment = false)
      (ha : t.at? (place ++ [segment]) = some (.file content)) :
      Leads t place [segment] (place ++ [segment]) (.file content)

variable {segments : List Text} {q : Place} {entry : Entry}

theorem Leads.follow_eq (h : Leads t place segments q entry) :
    t.follow place segments = .ok (q, entry) := by
  induction h with
  | here place => rfl
  | idle hs _ ih => rw [follow, if_pos hs, ih]
  | up hs hd _ ih => rw [follow, if_neg (by simp [hs]), if_pos hd, ih]
  | down hs hd ha _ ih => rw [follow, if_neg (by simp [hs]), if_neg (by simp [hd]), ha, ih]
  | file hs hd ha => rw [follow, if_neg (by simp [hs]), if_neg (by simp [hd]), ha]; rfl

theorem leads_of_follow (h : t.follow place segments = .ok (q, entry)) :
    Leads t place segments q entry := by
  induction segments generalizing place with
  | nil =>
    cases h
    exact .here _
  | cons segment rest ih =>
    rw [follow] at h
    split at h
    · next hs => exact .idle hs (ih h)
    · next hs =>
      have hs : Path.isIdle segment = false := by simpa using hs
      split at h
      · next hd => exact .up hs hd (ih h)
      · next hd =>
        have hd : Path.isDoubleDot segment = false := by simpa using hd
        split at h
        · cases h
        · next ha => exact .down hs hd ha (ih h)
        · next content ha =>
          split at h
          · next hrest =>
            cases h
            rw [hrest]
            exact .file hs hd ha
          · cases h

theorem Leads.append {rest : List Text} {r : Place} (h : Leads t place segments q .folder)
    (hr : Leads t q rest r entry) : Leads t place (segments ++ rest) r entry := by
  generalize hf : Entry.folder = found at h
  induction h with
  | here place => exact hr
  | idle hs _ ih => exact .idle hs (ih hr hf)
  | up hs hd _ ih => exact .up hs hd (ih hr hf)
  | down hs hd ha _ ih => exact .down hs hd ha (ih hr hf)
  | file hs hd ha => cases hf

theorem Leads.split {first rest : List Text} {r : Place}
    (h : Leads t place (first ++ rest) r entry) (hr : rest ≠ [] ∨ entry = .folder) :
    ∃ q, Leads t place first q .folder ∧ Leads t q rest r entry := by
  induction first generalizing place with
  | nil => exact ⟨place, .here place, h⟩
  | cons segment first ih =>
    rw [List.cons_append] at h
    generalize hs : first ++ rest = segments at h
    cases h with
    | idle hi h =>
      obtain ⟨q, hq, hrest⟩ := ih (hs ▸ h)
      exact ⟨q, .idle hi hq, hrest⟩
    | up hi hd h =>
      obtain ⟨q, hq, hrest⟩ := ih (hs ▸ h)
      exact ⟨q, .up hi hd hq, hrest⟩
    | down hi hd ha h =>
      obtain ⟨q, hq, hrest⟩ := ih (hs ▸ h)
      exact ⟨q, .down hi hd ha hq, hrest⟩
    | file hi hd ha =>
      -- A file stands at the end, so there is nothing after it.
      obtain ⟨-, hrest⟩ := List.append_eq_nil_iff.mp hs
      rcases hr with hr | hr
      · exact absurd hrest hr
      · cases hr

theorem Leads.unique {r : Place} {entry' : Entry} (h : Leads t place segments q entry)
    (h' : Leads t place segments r entry') : q = r ∧ entry = entry' := by
  have hsame := h.follow_eq.symm.trans h'.follow_eq
  simpa only [Except.ok.injEq, Prod.mk.injEq] using hsame

theorem leads_idle (hs : ∀ s ∈ segments, Path.isIdle s = true) (place : Place) :
    Leads t place segments place .folder := by
  induction segments with
  | nil => exact .here place
  | cons segment segments ih =>
    obtain ⟨hi, hs⟩ := List.forall_mem_cons.mp hs
    exact .idle hi (ih hs)

/-- Empty segments and dots behind a folder lead nowhere else. -/
theorem Leads.of_append_idle {first rest : List Text} (hrest : ∀ s ∈ rest, Path.isIdle s = true)
    (h : Leads t place (first ++ rest) q .folder) : Leads t place first q .folder := by
  obtain ⟨r, hfirst, hlast⟩ := h.split (.inr rfl)
  obtain ⟨rfl, -⟩ := hlast.unique (leads_idle hrest r)
  exact hfirst

theorem Leads.at?_file {content : Content} (h : Leads t place segments q (.file content)) :
    t.at? q = some (.file content) := by
  generalize hf : Entry.file content = file at h
  induction h with
  | here place => cases hf
  | idle _ _ ih => exact ih hf
  | up _ _ _ ih => exact ih hf
  | down _ _ _ _ ih => exact ih hf
  | file _ _ ha => exact hf ▸ ha

/-! ### Trees with the same folders -/

def SameFolders (t u : Tree) : Prop :=
  ∀ place, t.at? place = some .folder ↔ u.at? place = some .folder

theorem sameFolders_of (ht : t.at? place ≠ some .folder) (hu : u.at? place ≠ some .folder)
    (hothers : ∀ q, q ≠ place → u.at? q = t.at? q) : SameFolders t u := by
  intro q
  by_cases h : q = place
  · rw [h]
    exact ⟨fun hf => absurd hf ht, fun hf => absurd hf hu⟩
  · rw [hothers q h]

theorem ne_nil_of_at? (hp : t.at? place ≠ some .folder) : place ≠ [] := by
  rintro rfl
  exact hp rfl

theorem sameFolders_erase (hp : t.at? place ≠ some .folder) : SameFolders t (t.erase place) :=
  sameFolders_of hp (by rw [at?_erase_self (ne_nil_of_at? hp)]; exact nofun) fun _ => at?_erase

theorem sameFolders_put (hp : t.at? place ≠ some .folder) (content : Content) :
    SameFolders t (t.put place (.file content)) :=
  sameFolders_of hp (by rw [at?_put_self (ne_nil_of_at? hp)]; exact nofun) fun _ h => at?_put h _

/-- A folder is still found where the folders on the way to it still stand. -/
theorem Leads.mono (hkept : ∀ place, t.at? place = some .folder → u.at? place = some .folder)
    (h : Leads t place segments q .folder) : Leads u place segments q .folder := by
  generalize hf : Entry.folder = found at h ⊢
  induction h with
  | here place => exact .here place
  | idle hi _ ih => exact .idle hi (ih hf)
  | up hi hd _ ih => exact .up hi hd (ih hf)
  | down hi hd ha _ ih => exact .down hi hd (hkept _ ha) (ih hf)
  | file hi hd ha => cases hf

/-- Only the folders of a tree decide which folder segments lead to. -/
theorem Leads.of_sameFolders (hs : SameFolders t u) (h : Leads t place segments q .folder) :
    Leads u place segments q .folder := h.mono fun place => (hs place).mp

/-! ### Files that are found -/

theorem locate_eq_ok {p : Text} :
    t.locate p = .ok (q, entry) ↔ p ≠ [] ∧ Leads t [] (Path.segments p) q entry := by
  unfold locate
  by_cases hp : p = []
  · rw [if_pos hp]
    exact ⟨fun h => (by cases h), fun h => absurd hp h.1⟩
  · rw [if_neg hp]
    exact ⟨fun h => ⟨hp, leads_of_follow h⟩, fun h => h.2.follow_eq⟩

theorem locate_mono {p : Text}
    (hkept : ∀ place, t.at? place = some .folder → u.at? place = some .folder)
    (h : t.locate p = .ok (q, .folder)) : u.locate p = .ok (q, .folder) := by
  obtain ⟨hp, hleads⟩ := locate_eq_ok.mp h
  exact locate_eq_ok.mpr ⟨hp, hleads.mono hkept⟩

theorem read_eq_ok {p content : Text} :
    t.read p = .ok content ↔ ∃ q, t.locate p = .ok (q, .file (.text content)) := by
  unfold read
  refine ⟨fun h => ?_, fun ⟨q, h⟩ => by rw [h]⟩
  split at h
  · next place text hl =>
    cases h
    exact ⟨place, hl⟩
  · cases h
  · cases h
  · cases h

/-! ### Names in folders -/

/-- A path leads to a folder and goes on with a name in it. -/
structure Names (t : Tree) (p : Text) (folder : Place) (name : Text) : Prop where
  way : ∃ init, Path.segments p = init ++ [name] ∧ Leads t [] init folder .folder
  idle : Path.isIdle name = false
  dots : Path.isDoubleDot name = false

variable {p name : Text} {folder : Place} {content : Content}

theorem ne_nil_of_segments {init : List Text} (hs : Path.segments p = init ++ [name])
    (hidle : Path.isIdle name = false) : p ≠ [] := by
  rintro rfl
  have hempty : [] ++ [[]] = init ++ [name] := hs
  obtain ⟨-, hname⟩ := List.append_inj' hempty rfl
  cases List.singleton_inj.mp hname
  cases hidle

theorem Names.of_sameFolders (hs : SameFolders t u) (h : t.Names p folder name) :
    u.Names p folder name := by
  obtain ⟨init, hsegments, hleads⟩ := h.way
  exact ⟨⟨init, hsegments, hleads.of_sameFolders hs⟩, h.idle, h.dots⟩

theorem Names.locate_eq (h : t.Names p folder name)
    (ha : t.at? (folder ++ [name]) = some (.file content)) :
    t.locate p = .ok (folder ++ [name], .file content) := by
  obtain ⟨init, hsegments, hleads⟩ := h.way
  refine locate_eq_ok.mpr ⟨ne_nil_of_segments hsegments h.idle, ?_⟩
  rw [hsegments]
  exact hleads.append (.file h.idle h.dots ha)

theorem Names.locate_put (h : t.Names p folder name)
    (hfree : t.at? (folder ++ [name]) ≠ some .folder) (content : Content) :
    (t.put (folder ++ [name]) (.file content)).locate p =
      .ok (folder ++ [name], .file content) :=
  (h.of_sameFolders (sameFolders_put hfree content)).locate_eq
    (at?_put_self (List.concat_ne_nil _ _) _)

theorem Leads.exists_folder (h : Leads t place segments q (.file content)) :
    ∃ init folder name, segments = init ++ [name] ∧ q = folder ++ [name] ∧
      Leads t place init folder .folder ∧ Path.isIdle name = false ∧
      Path.isDoubleDot name = false := by
  generalize hf : Entry.file content = file at h
  induction h with
  | here place => cases hf
  | idle hs _ ih =>
    obtain ⟨init, folder, name, rfl, hq, hleads, hname⟩ := ih hf
    exact ⟨_ :: init, folder, name, rfl, hq, .idle hs hleads, hname⟩
  | up hs hd _ ih =>
    obtain ⟨init, folder, name, rfl, hq, hleads, hname⟩ := ih hf
    exact ⟨_ :: init, folder, name, rfl, hq, .up hs hd hleads, hname⟩
  | down hs hd ha _ ih =>
    obtain ⟨init, folder, name, rfl, hq, hleads, hname⟩ := ih hf
    exact ⟨_ :: init, folder, name, rfl, hq, .down hs hd ha hleads, hname⟩
  | file hs hd ha => exact ⟨[], _, _, rfl, rfl, .here _, hs, hd⟩

/-- A path to a file names it in its folder. -/
theorem exists_names (h : t.locate p = .ok (q, .file content)) :
    ∃ folder name, q = folder ++ [name] ∧ t.Names p folder name := by
  obtain ⟨-, hleads⟩ := locate_eq_ok.mp h
  obtain ⟨init, folder, name, hsegments, hq, hfolder, hidle, hdots⟩ := hleads.exists_folder
  exact ⟨folder, name, hq, ⟨init, hsegments, hfolder⟩, hidle, hdots⟩

theorem Names.unique {folder' : Place} {name' : Text} (h : t.Names p folder name)
    (h' : t.Names p folder' name') : folder = folder' ∧ name = name' := by
  obtain ⟨init, hs, hleads⟩ := h.way
  obtain ⟨init', hs', hleads'⟩ := h'.way
  obtain ⟨rfl, hname⟩ := List.append_inj' (hs.symm.trans hs') rfl
  exact ⟨(hleads.unique hleads').1, List.singleton_inj.mp hname⟩

/-! ### Making, renaming and removing -/

theorem enter_eq_ok {segments : List Text} :
    t.enter segments = .ok folder ↔ Leads t [] segments folder .folder := by
  unfold enter
  refine ⟨fun h => ?_, fun h => by rw [h.follow_eq]⟩
  split at h
  · next hfound =>
    cases h
    exact leads_of_follow hfound
  · cases h
  · cases h

/-- A path with no slash at its end is approached through the folder in front of its last name. -/
theorem approach_eq {init : List Text} (hs : Path.segments p = init ++ [name])
    (hidle : Path.isIdle name = false) (hdots : Path.isDoubleDot name = false) :
    t.approach p =
      match t.enter init with
      | .error fault => .error fault
      | .ok folder => .ok (.name folder name false) := by
  unfold Path.isIdle at hidle
  rw [Bool.or_eq_false_iff] at hidle
  obtain ⟨hname, hdot⟩ := hidle
  unfold approach
  rw [if_neg (ne_nil_of_segments hs (by simp [Path.isIdle, hname, hdot])), hs]
  simp only [List.reverse_append, List.reverse_cons, List.reverse_nil, List.nil_append,
    List.singleton_append, List.dropWhile_cons, hname, Bool.false_eq_true, if_false,
    List.reverse_reverse, List.getLast?_concat, List.dropLast_concat, hdot, hdots, Bool.or_self]
  cases t.enter init with
  | error fault => rfl
  | ok folder => simp

/-- The segments of a path are those that count, which end with `last`, and empty ones. -/
theorem exists_blanks {last : Text} {kept : List Text}
    (hkept : (segments.reverse.dropWhile (· == [])).reverse = kept)
    (hlast : kept.getLast? = some last) :
    kept = kept.dropLast ++ [last] ∧ (∃ blanks, segments = kept ++ blanks ∧
      ∀ s ∈ blanks, Path.isIdle s = true) ∧ (last == []) = false := by
  have hkept : segments.rdropWhile (· == []) = kept := hkept
  have hne : kept ≠ [] := by
    rintro rfl
    cases hlast
  obtain rfl : last = kept.getLast hne := by
    rw [List.getLast?_eq_some_getLast hne] at hlast
    exact (Option.some.inj hlast).symm
  subst hkept
  refine ⟨(List.dropLast_concat_getLast hne).symm, ⟨segments.rtakeWhile (· == []), ?_, ?_⟩, ?_⟩
  · exact List.rdropWhile_append_rtakeWhile.symm
  · intro s hs
    have hs : (s == []) = true := List.mem_rtakeWhile_imp (p := fun s : Text => s == []) hs
    rw [eq_of_beq hs]
    rfl
  · simpa using List.rdropWhile_last_not (· == []) segments hne

/-- A path leads to a folder and goes on with a name, and with slashes if there are any behind it. -/
theorem approach_eq_ok {slash : Bool} (h : t.approach p = .ok (.name folder name slash)) :
    ∃ init blanks, Path.segments p = init ++ name :: blanks ∧ Leads t [] init folder .folder ∧
      Path.isIdle name = false ∧ Path.isDoubleDot name = false ∧
      (∀ s ∈ blanks, Path.isIdle s = true) ∧ (slash = false → blanks = []) := by
  unfold approach at h
  split at h
  · cases h
  · next hp =>
    dsimp only at h
    generalize hkept : ((Path.segments p).reverse.dropWhile (· == [])).reverse = kept at h
    split at h
    · cases h
    · next last hlast =>
      obtain ⟨hinit, ⟨blanks, hsegments, hblanks⟩, hname⟩ := exists_blanks hkept hlast
      split at h
      · cases h
      · next place henter =>
        split at h
        · cases h
        · next hdots =>
          simp only [Except.ok.injEq, Last.name.injEq] at h
          obtain ⟨rfl, rfl, hslash⟩ := h
          rw [Bool.or_eq_true, not_or, Bool.not_eq_true, Bool.not_eq_true] at hdots
          refine ⟨kept.dropLast, blanks, ?_, enter_eq_ok.mp henter, ?_, hdots.2, hblanks, ?_⟩
          · rw [hsegments, List.append_cons, ← hinit]
          · unfold Path.isIdle
            rw [hname, hdots.1]
            rfl
          · rintro rfl
            rw [decide_eq_false_iff_not, Nat.not_lt, hsegments, List.length_append] at hslash
            exact List.length_eq_zero_iff.mp (by omega)

/-- A path with no slash at its end leads to a folder and has one more segment, a name. -/
theorem approach_name (h : t.approach p = .ok (.name folder name false)) :
    t.Names p folder name := by
  obtain ⟨init, blanks, hsegments, hleads, hidle, hdots, -, hslash⟩ := approach_eq_ok h
  cases hslash rfl
  exact ⟨⟨init, hsegments, hleads⟩, hidle, hdots⟩

/-- A folder is not made where one stands. -/
theorem make_folder (h : t.locate p = .ok (place, .folder)) (entry : Entry) :
    t.make p entry = .error .alreadyExists := by
  obtain ⟨hp, hleads⟩ := locate_eq_ok.mp h
  unfold make approach
  rw [if_neg hp]
  dsimp only
  generalize hkept : ((Path.segments p).reverse.dropWhile (· == [])).reverse = kept
  cases hlast : kept.getLast? with
  | none => rfl
  | some last =>
    obtain ⟨hinit, ⟨blanks, hsegments, hblanks⟩, hname⟩ := exists_blanks hkept hlast
    rw [hsegments] at hleads
    have hkeeps := hleads.of_append_idle hblanks
    rw [hinit] at hkeeps
    obtain ⟨folder, hfolder, hend⟩ := hkeeps.split (.inl (List.cons_ne_nil _ _))
    dsimp only
    rw [enter_eq_ok.mpr hfolder]
    dsimp only
    by_cases hdots : (Path.isDot last || Path.isDoubleDot last) = true
    · rw [if_pos hdots]
    · rw [if_neg hdots]
      rw [Bool.or_eq_true, not_or, Bool.not_eq_true, Bool.not_eq_true] at hdots
      have hidle : Path.isIdle last = false := by
        unfold Path.isIdle
        rw [hname, hdots.1]
        rfl
      cases hend with
      | idle hi _ => cases hidle.symm.trans hi
      | up _ hd _ => cases hdots.2.symm.trans hd
      | down _ _ ha _ => simp [ha]

/-- What is made under a name stood nowhere before. -/
theorem make_eq_ok {init : List Text} (hs : Path.segments p = init ++ [name])
    (hidle : Path.isIdle name = false) (hdots : Path.isDoubleDot name = false)
    (h : t.make p entry = .ok u) :
    ∃ folder, t.Names p folder name ∧ t.at? (folder ++ [name]) = none ∧
      u = t.put (folder ++ [name]) entry := by
  unfold make at h
  rw [approach_eq hs hidle hdots] at h
  cases henter : t.enter init with
  | error fault =>
    rw [henter] at h
    cases h
  | ok folder =>
    rw [henter] at h
    dsimp only at h
    split at h
    · cases h
    · next hnone =>
      cases h
      have hnames : t.Names p folder name := ⟨⟨init, hs, enter_eq_ok.mp henter⟩, hidle, hdots⟩
      exact ⟨folder, hnames, by simpa using hnone, rfl⟩

theorem at?_put_kept {q : Place} {new old : Entry} (hnone : t.at? place = none)
    (hq : t.at? q = some old) : (t.put place new).at? q = some old := by
  have hne : q ≠ place := by
    rintro rfl
    cases hnone.symm.trans hq
  rw [at?_put hne, hq]

/-- A folder is made where nothing stood, and its path leads to it. -/
theorem make_folder_eq_ok (h : t.make p .folder = .ok u) :
    ∃ place, t.at? place = none ∧ u = t.put place .folder ∧ u.locate p = .ok (place, .folder) := by
  unfold make at h
  split at h
  · cases h
  · next folder name slash happroach =>
    split at h
    · cases h
    · next hsome =>
      cases h
      have hnone : t.at? (folder ++ [name]) = none := by simpa using hsome
      obtain ⟨init, blanks, hsegments, hleads, hidle, hdots, hblanks, -⟩ :=
        approach_eq_ok happroach
      have hp : p ≠ [] := by
        rintro rfl
        cases happroach
      have hmade : (t.put (folder ++ [name]) .folder).at? (folder ++ [name]) = some .folder :=
        at?_put_self (List.concat_ne_nil _ _) _
      refine ⟨folder ++ [name], hnone, rfl, locate_eq_ok.mpr ⟨hp, ?_⟩⟩
      rw [hsegments]
      exact (hleads.mono fun _ hq => at?_put_kept hnone hq).append
        (.down hidle hdots hmade (leads_idle hblanks _))
  · cases h

/-- What is renamed stands under its new name afterwards, and no more under its old one. -/
theorem rename_eq_ok {source target : Text} (h : t.rename source target = .ok u)
    (hs : t.locate source = .ok (q, .file content)) :
    ∃ folder name, (t.erase q).Names target folder name ∧
      (t.erase q).at? (folder ++ [name]) ≠ some .folder ∧
      u = (t.erase q).put (folder ++ [name]) (.file content) := by
  unfold rename at h
  rw [hs] at h
  dsimp only at h
  split at h
  · cases h
  · cases h
  · next folder name ha =>
    split at h
    · cases h
    · next hfolder =>
      cases h
      -- What was renamed was no folder, so every way leads as it did.
      have herase : SameFolders t (t.erase q) := by
        refine sameFolders_erase ?_
        rw [(locate_eq_ok.mp hs).2.at?_file]
        exact fun hf => by cases hf
      exact ⟨folder, name, (approach_name ha).of_sameFolders herase,
        fun hf => hfolder ((herase _).mpr hf), rfl⟩
  · cases h

/-! ### Files that are made and go again -/

section Made

variable (h : t.Names p folder name) (hnone : t.at? (folder ++ [name]) = none)
include h hnone

theorem Names.locate_made (content : Content) :
    (t.put (folder ++ [name]) (.file content)).locate p = .ok (folder ++ [name], .file content) :=
  h.locate_put (by rw [hnone]; exact nofun) content

theorem Names.write_made (old : Content) (content : Text) :
    (t.put (folder ++ [name]) (.file old)).write p content =
      .ok (t.put (folder ++ [name]) (.file (.text content))) := by
  unfold write
  rw [h.locate_made hnone]
  dsimp only
  rw [put_put]

theorem Names.remove_made (content : Content) :
    (t.put (folder ++ [name]) (.file content)).remove p = t := by
  unfold remove
  rw [h.locate_made hnone]
  dsimp only
  rw [erase_put, erase_eq_self hnone]

/-- A new file that is renamed is as one that was made under the other name. -/
theorem Names.rename_made {target : Text}
    (hmove : (t.put (folder ++ [name]) (.file content)).rename p target = .ok u) :
    ∃ folder name, t.Names target folder name ∧ t.at? (folder ++ [name]) ≠ some .folder ∧
      u = t.put (folder ++ [name]) (.file content) := by
  have hrenamed := rename_eq_ok hmove (h.locate_made hnone content)
  rwa [erase_put, erase_eq_self hnone] at hrenamed

end Made

end DiagramDoc.Tree
