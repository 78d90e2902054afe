import DiagramDoc.Proofs.Files.Saving

/-!
# All or nothing

Saving makes the folders above its path that are missing, one after the other. Whatever fails on the
way, this is all that it leaves behind: every file is one that was there before, or it is the
document, in full, where the path leads.
-/

namespace DiagramDoc

open DiagramDoc.Tree

/-! ### Trees that grow -/

/-- A place is as it was, or nothing was there and now a folder is, to which one of some paths
leads. -/
def KeptOrMade (t : Tree) (paths : List Text) (u : Tree) (q : Place) : Prop :=
  u.at? q = t.at? q ∨
    t.at? q = none ∧ u.at? q = some .folder ∧ ∃ p ∈ paths, u.locate p = .ok (q, .folder)

/-- Nothing happened but that folders were made on the way of some paths. -/
def Grows (t : Tree) (paths : List Text) (u : Tree) : Prop := ∀ q, KeptOrMade t paths u q

namespace Grows

variable {t u v : Tree} {paths : List Text}

theorem refl (t : Tree) (paths : List Text) : Grows t paths t := fun _ => .inl rfl

theorem at?_eq (h : Grows t paths u) {q : Place} {entry : Entry} (hq : t.at? q = some entry) :
    u.at? q = some entry := by
  rcases h q with hu | ⟨hnone, -⟩
  · rw [hu, hq]
  · cases hnone.symm.trans hq

theorem trans (h : Grows t paths u) (h' : Grows u paths v) : Grows t paths v := by
  intro q
  rcases h q with hu | ⟨hnone, hfolder, p, hp, hlocate⟩
  · rcases h' q with hv | ⟨hnone, hmade⟩
    · exact .inl (hv.trans hu)
    · exact .inr ⟨hu.symm.trans hnone, hmade⟩
  · -- A folder that was made stays, and is found as before.
    exact .inr ⟨hnone, h'.at?_eq hfolder, p, hp, locate_mono (fun _ hq => h'.at?_eq hq) hlocate⟩

theorem of_make {p : Text} (hp : p ∈ paths) (h : t.make p .folder = .ok u) : Grows t paths u := by
  obtain ⟨place, hnone, rfl, hlocate⟩ := make_folder_eq_ok h
  have hfree : t.at? place ≠ some .folder := by rw [hnone]; exact nofun
  intro q
  by_cases hq : q = place
  · rw [hq]
    exact .inr ⟨hnone, at?_put_self (ne_nil_of_at? hfree) _, p, hp, hlocate⟩
  · exact .inl (at?_put hq _)

end Grows

/-! ### Making folders on disks that may fail -/

variable {σ : Type} {disk : Disk (StateM σ)} {tree : σ → Tree} {s s' : σ} {paths : List Text}

namespace Disk.Faithful

theorem grows_makeFolder (hdisk : disk.Faithful tree) {p : Text} (hp : p ∈ paths)
    {result : Except Fault Unit} (hrun : (disk.makeFolder p).run s = (result, s')) :
    Grows (tree s) paths (tree s') := by
  have hmade := hdisk.makeFolder s p
  rw [hrun] at hmade
  cases hmade with
  | done h => exact .of_make hp h
  | failed _ hs => exact hs ▸ .refl _ _

theorem grows_climb (hdisk : disk.Faithful tree) {missing rest : List Text}
    {result : Except Fault (List Text)} (hmissing : missing ⊆ paths) (hrest : rest ⊆ paths)
    (hrun : (climb disk missing rest).run s = (result, s')) :
    Grows (tree s) paths (tree s') ∧ ∀ left, result = .ok left → left ⊆ paths := by
  induction rest generalizing missing s with
  | nil =>
    cases hrun
    exact ⟨.refl _ _, fun _ h => Except.ok.inj h ▸ hmissing⟩
  | cons p rest ih =>
    obtain ⟨hp, hrest⟩ := List.cons_subset.mp hrest
    unfold climb at hrun
    obtain ⟨made, s₁, hmake, hrun⟩ := run_bind_eq hrun
    have hgrows := hdisk.grows_makeFolder hp hmake
    split at hrun
    · cases hrun
      exact ⟨hgrows, fun _ h => Except.ok.inj h ▸ hmissing⟩
    · obtain ⟨hmore, hleft⟩ := ih (List.cons_subset.mpr ⟨hp, hmissing⟩) hrest hrun
      exact ⟨hgrows.trans hmore, hleft⟩
    · split at hrun
      · obtain ⟨found, s₂, hlook, hrun⟩ := run_bind_eq hrun
        rw [← hdisk.tree_isFolder hlook] at hgrows
        split at hrun
        · cases hrun
          exact ⟨hgrows, fun _ h => Except.ok.inj h ▸ hmissing⟩
        · cases hrun
          exact ⟨hgrows, nofun⟩
      · cases hrun
        exact ⟨hgrows, nofun⟩

theorem grows_makeEach (hdisk : disk.Faithful tree) {rest : List Text}
    {result : Except Fault Unit} (hrest : rest ⊆ paths)
    (hrun : (makeEach disk rest).run s = (result, s')) : Grows (tree s) paths (tree s') := by
  induction rest generalizing s with
  | nil =>
    cases hrun
    exact .refl _ _
  | cons p rest ih =>
    obtain ⟨hp, hrest⟩ := List.cons_subset.mp hrest
    unfold makeEach at hrun
    obtain ⟨made, s₁, hmake, hrun⟩ := run_bind_eq hrun
    have hgrows := hdisk.grows_makeFolder hp hmake
    split at hrun
    · exact hgrows.trans (ih hrest hrun)
    · split at hrun
      · obtain ⟨found, s₂, hlook, hrun⟩ := run_bind_eq hrun
        rw [← hdisk.tree_isFolder hlook] at hgrows
        split at hrun
        · exact hgrows.trans (ih hrest hrun)
        · cases hrun
          exact hgrows
      · cases hrun
        exact hgrows

/-- However far making a folder comes, only it and folders above it are new. -/
theorem grows_makeFolders (hdisk : disk.Faithful tree) (s : σ) (p : Text) :
    Grows (tree s) (Path.ancestors p) (tree ((disk.makeFolders p).run s).2) := by
  obtain ⟨climbed, s₁, hclimb, hrun⟩ := run_bind_eq (rfl : (disk.makeFolders p).run s = _)
  obtain ⟨hgrows, hleft⟩ := hdisk.grows_climb (List.nil_subset _) (List.Subset.refl _) hclimb
  rw [← hrun]
  cases climbed with
  | error fault => exact hgrows
  | ok missing => exact hgrows.trans (hdisk.grows_makeEach (hleft missing rfl) rfl)

end Disk.Faithful

/-! ### Saving -/

open Disk

/-- What may become of a tree when a text is saved: folders may be made above the path, and the file
that the path leads to holds the text; or saving fails, and there are only the folders. -/
inductive AllOrNothing (t : Tree) (p content : Text) : Except StoreError Unit → Tree → Prop
  | nothing {u : Tree} (e : StoreError) (h : Grows t (Path.ancestors (folderOf p)) u) :
      AllOrNothing t p content (.error e) u
  | all {u : Tree} {place : Place} (hp : u.locate p = .ok (place, .file (.text content)))
      (hfree : t.at? place ≠ some .folder)
      (h : ∀ q, q ≠ place → KeptOrMade t (Path.ancestors (folderOf p)) u q) :
      AllOrNothing t p content (.ok ()) u

theorem Saves.allOrNothing {t u v : Tree} {p content : Text} {result : Except StoreError Unit}
    (hgrows : Grows t (Path.ancestors (folderOf p)) u) (h : Saves u p content result v) :
    AllOrNothing t p content result v := by
  cases h with
  | failed e => exact .nothing e hgrows
  | @saved folder name hnames hfree =>
    refine .all (hnames.locate_put hfree _) (fun hf => hfree (hgrows.at?_eq hf)) fun q hq => ?_
    have hsame := sameFolders_put hfree (.text content)
    rcases hgrows q with hu | ⟨hnone, hfolder, path, hpath, hlocate⟩
    · exact .inl ((at?_put hq _).trans hu)
    · exact .inr ⟨hnone, (at?_put hq _).trans hfolder, path, hpath,
        locate_mono (fun place => (hsame place).mp) hlocate⟩

/-- Every file was there before, or it is the one that was saved. -/
theorem AllOrNothing.file {t u : Tree} {p content : Text} {result : Except StoreError Unit}
    (h : AllOrNothing t p content result u) {q : Place} {held : Content}
    (hq : u.at? q = some (.file held)) :
    t.at? q = some (.file held) ∨
      result = .ok () ∧ held = .text content ∧ u.locate p = .ok (q, .file held) := by
  have hkept : KeptOrMade t (Path.ancestors (folderOf p)) u q → t.at? q = some (.file held) := by
    rintro (hu | ⟨-, hfolder, -⟩)
    · exact hu.symm.trans hq
    · cases hfolder.symm.trans hq
  cases h with
  | nothing e h => exact .inl (hkept (h q))
  | @all u place hp hfree h =>
    by_cases hplace : q = place
    · subst hplace
      cases (locate_eq_ok.mp hp).2.at?_file.symm.trans hq
      exact .inr ⟨rfl, rfl, hp⟩
    · exact .inl (hkept (h q hplace))

/-- Saving is all or nothing: whatever fails, every file that was there is as it was but for the one
that was saved, which holds the whole document, and there is no other file. -/
theorem Disk.Faithful.save_allOrNothing (hdisk : disk.Faithful tree) {p : Text} {d : Diagram}
    {result : Except StoreError Unit} (hrun : (disk.save p d).run s = (result, s')) :
    AllOrNothing (tree s) p d.toDocument result (tree s') ∧
      ∀ q held, (tree s').at? q = some (.file held) →
        (tree s).at? q = some (.file held) ∨
          result = .ok () ∧ held = .text d.toDocument ∧
            (tree s').locate p = .ok (q, .file held) := by
  have hsaves : AllOrNothing (tree s) p d.toDocument result (tree s') := by
    rcases hdisk.replace hrun with h | h
    · exact h.allOrNothing (.refl _ _)
    · exact h.allOrNothing (hdisk.grows_makeFolders s (folderOf p))
  exact ⟨hsaves, fun q held hq => hsaves.file hq⟩

/-- A folder with a file in it, and a file beside it. -/
def shelf : Tree :=
  ⟨[(["docs".toList], .folder), (["docs".toList, "d.json".toList], .file (.text ['1'])),
    (["s.mmd".toList], .file (.text ['2']))]⟩

def shelfPaths : List String := ["docs/new/d.json", "docs/d.json", "docs", "s.mmd/d.json", ".."]

def shelved (path : String) (changes : Nat) : Except StoreError Unit × Tree × Nat :=
  ((Tree.wornDisk 1).save path.toList {}).run (shelf, changes)

theorem save_allOrNothing_shelf :
    (shelfPaths.map fun path => (List.range 5).map fun changes => (shelved path changes).1.isOk) =
        List.replicate 2 [false, false, false, false, true] ++
          List.replicate 3 (List.replicate 5 false) ∧
      ∀ path ∈ shelfPaths, ∀ changes ∈ List.range 5,
        AllOrNothing shelf path.toList ({} : Diagram).toDocument (shelved path changes).1
            (shelved path changes).2.1 ∧
          ∀ q held, (shelved path changes).2.1.at? q = some (.file held) →
            shelf.at? q = some (.file held) ∨
              (shelved path changes).1 = .ok () ∧ held = .text ({} : Diagram).toDocument ∧
                (shelved path changes).2.1.locate path.toList = .ok (q, .file held) := by
  have hcomputed : (shelfPaths.map fun path =>
        (List.range 5).map fun changes => (shelved path changes).1.isOk) =
      List.replicate 2 [false, false, false, false, true] ++
        List.replicate 3 (List.replicate 5 false) := by decide +kernel
  exact ⟨hcomputed, fun path _ changes _ =>
    (Tree.faithful_wornDisk 1).save_allOrNothing (s := (shelf, changes)) rfl⟩

end DiagramDoc
