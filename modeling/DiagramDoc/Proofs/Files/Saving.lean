import DiagramDoc.Proofs.Files.Faithful
import DiagramDoc.Proofs.Files.Path

/-!
# Saving and loading on disks that may fail

Whatever fails while a file is replaced, the temporary file is removed again and the tree is what it
was. A file that was replaced has its new content, and it is all that is new.
-/

namespace DiagramDoc

open DiagramDoc.Tree

variable {σ : Type} {disk : Disk (StateM σ)} {tree : σ → Tree} {s s' : σ}

/-- Saving fails and changes nothing, or puts a text where the path leads. -/
inductive Saves (t : Tree) (p content : Text) : Except StoreError Unit → Tree → Prop
  | failed (e : StoreError) : Saves t p content (.error e) t
  | saved {folder : Place} {name : Text} (h : t.Names p folder name)
      (hfree : t.at? (folder ++ [name]) ≠ some .folder) :
      Saves t p content (.ok ()) (t.put (folder ++ [name]) (.file (.text content)))

/-- The file that a path leads to has a new content, and everything else is as it was. -/
structure Rewrites (t : Tree) (p content : Text) (u : Tree) : Prop where
  file : ∃ place old, t.locate p = .ok (place, .file old) ∧
    u.locate p = .ok (place, .file (.text content)) ∧ ∀ q, q ≠ place → u.at? q = t.at? q

namespace Rewrites

variable {t u : Tree} {p content : Text}

theorem read_eq (h : Rewrites t p content u) : u.read p = .ok content := by
  obtain ⟨place, old, -, hu, -⟩ := h.file
  exact read_eq_ok.mpr ⟨place, hu⟩

/-- A file that is rewritten with what it holds stays as it is, and so does all else. -/
theorem at?_eq (h : Rewrites t p content u) (hread : t.read p = .ok content) (q : Place) :
    u.at? q = t.at? q := by
  obtain ⟨place, old, ht, hu, hothers⟩ := h.file
  by_cases hq : q = place
  · obtain ⟨_, hfound⟩ := read_eq_ok.mp hread
    cases ht.symm.trans hfound
    rw [hq, (locate_eq_ok.mp ht).2.at?_file, (locate_eq_ok.mp hu).2.at?_file]
  · exact hothers q hq

end Rewrites

namespace Saves

variable {t u : Tree} {p content : Text}

theorem read_eq (h : Saves t p content (.ok ()) u) : u.read p = .ok content := by
  cases h with
  | saved h hfree => exact read_eq_ok.mpr ⟨_, h.locate_put hfree _⟩

theorem eq_of_error {e : StoreError} (h : Saves t p content (.error e) u) : u = t := by
  cases h
  rfl

theorem rewrites {place : Place} {old : Content} (h : Saves t p content (.ok ()) u)
    (hp : t.locate p = .ok (place, .file old)) : Rewrites t p content u := by
  cases h with
  | saved h hfree =>
    obtain ⟨folder, name, rfl, hnames⟩ := exists_names hp
    obtain ⟨rfl, rfl⟩ := h.unique hnames
    exact ⟨_, old, hp, h.locate_put hfree _, fun q hq => at?_put hq _⟩

end Saves

namespace Disk

/-- What a failed write left is the tree with another content in one file. -/
theorem Partly.exists_content {t u : Tree} {p : Text} {place : Place} {content : Content}
    (h : Partly (t.put place (.file content)) p u)
    (hp : (t.put place (.file content)).locate p = .ok (place, .file content)) :
    ∃ left, u = t.put place (.file left) := by
  cases h with
  | untouched => exact ⟨content, rfl⟩
  | written h new =>
    rw [hp] at h
    cases h
    exact ⟨new, put_put _ _⟩

namespace Faithful

/-- A new temporary file is removed again, or it becomes the file that is replaced. -/
theorem replaceBy (hdisk : disk.Faithful tree) {init : List Text} {temporary name p content : Text}
    {result : Except StoreError Unit} (hs : Path.segments temporary = init ++ [name])
    (hidle : Path.isIdle name = false) (hdots : Path.isDoubleDot name = false)
    (hrun : (disk.replaceBy temporary p content).run s = (result, s')) :
    Saves (tree s) p content result (tree s') := by
  unfold Disk.replaceBy at hrun
  obtain ⟨created, s₁, hcreate, hrun⟩ := run_bind_eq hrun
  have hcreated := hdisk.create s temporary
  rw [hcreate] at hcreated
  cases hcreated with
  | failed _ hs₁ =>
    cases hrun
    exact hs₁ ▸ .failed _
  | done hmake =>
    -- Until it is renamed, the world shows the old tree with a new file in it.
    obtain ⟨folder, hnames, hnone, hs₁⟩ := make_eq_ok hs hidle hdots hmake
    obtain ⟨written, s₂, hwrite, hrun⟩ := run_bind_eq hrun
    have hwritten := hdisk.write s₁ temporary content
    rw [hwrite, hs₁] at hwritten
    cases hwritten with
    | failed _ hs₂ =>
      obtain ⟨_, s₃, hremove, hrun⟩ := run_bind_eq hrun
      cases hrun
      obtain ⟨left, hs₂⟩ := hs₂.exists_content (hnames.locate_made hnone _)
      have hs₃ := hdisk.remove s₂ temporary
      rw [hremove, hs₂, hnames.remove_made hnone] at hs₃
      exact hs₃ ▸ .failed _
    | done hfill =>
      rw [hnames.write_made hnone, Except.ok.injEq] at hfill
      obtain ⟨renamed, s₃, hrename, hrun⟩ := run_bind_eq hrun
      have hrenamed := hdisk.rename s₂ temporary p
      rw [hrename, ← hfill] at hrenamed
      cases hrenamed with
      | failed _ hs₃ =>
        obtain ⟨_, s₄, hremove, hrun⟩ := run_bind_eq hrun
        cases hrun
        have hs₄ := hdisk.remove s₃ temporary
        rw [hremove, hs₃, hnames.remove_made hnone] at hs₄
        exact hs₄ ▸ .failed _
      | done hmove =>
        cases hrun
        obtain ⟨folder, name, hnames, hfree, htree⟩ := hnames.rename_made hnone hmove
        exact htree ▸ .saved hnames hfree

/-- The first path that is tried is the folder itself, and that it exists ends the search. -/
theorem climb_eq (hdisk : disk.Faithful tree) {p : Text} {place : Place}
    (hfolder : (tree s).locate p = .ok (place, .folder)) {rest : List Text}
    {result : Except Fault (List Text)}
    (hrun : (climb disk [] (p :: rest)).run s = (result, s')) :
    tree s' = tree s ∧ ∀ missing, result = .ok missing → missing = [] := by
  unfold climb at hrun
  obtain ⟨made, s₁, hmake, hrun⟩ := run_bind_eq hrun
  have hmade := hdisk.makeFolder s p
  rw [hmake, make_folder hfolder] at hmade
  cases hmade with
  | done h => cases h
  | @failed fault _ hm hs₁ =>
    split at hrun
    · next h => cases h
    · next h =>
      cases h
      cases hm rfl
    · next fault' _ h =>
      cases h
      split at hrun
      · obtain ⟨isFolder, s₂, hlook, hrun⟩ := run_bind_eq hrun
        have hs₂ := (hdisk.tree_isFolder hlook).trans hs₁
        split at hrun
        · cases hrun
          exact ⟨hs₂, fun _ h => (Except.ok.inj h).symm⟩
        · cases hrun
          exact ⟨hs₂, nofun⟩
      · cases hrun
        exact ⟨hs₁, nofun⟩

/-- No folder is made where one stands. -/
theorem makeFolders_eq (hdisk : disk.Faithful tree) {p : Text} {place : Place}
    (hfolder : (tree s).locate p = .ok (place, .folder)) :
    tree ((disk.makeFolders p).run s).2 = tree s := by
  obtain ⟨climbed, s₁, hclimb, hrun⟩ := run_bind_eq (rfl : (disk.makeFolders p).run s = _)
  have hs₁ : tree s₁ = tree s ∧ ∀ missing, climbed = .ok missing → missing = [] := by
    rcases Path.ancestors_eq p with h | ⟨rest, h⟩
    · rw [h] at hclimb
      cases hclimb
      exact ⟨rfl, fun _ h => (Except.ok.inj h).symm⟩
    · rw [h] at hclimb
      exact climb_eq hdisk hfolder hclimb
  rw [← hrun]
  cases climbed with
  | error fault => exact hs₁.1
  | ok missing =>
    cases hs₁.2 missing rfl
    exact hs₁.1

/-- A file is replaced in the tree in which folders were made for it. -/
theorem replace (hdisk : disk.Faithful tree) {p content : Text} {result : Except StoreError Unit}
    (hrun : (disk.replace p content).run s = (result, s')) :
    Saves (tree s) p content result (tree s') ∨
      Saves (tree ((disk.makeFolders (folderOf p)).run s).2) p content result (tree s') := by
  unfold Disk.replace at hrun
  cases hname : Path.fileName? p with
  | none =>
    rw [hname] at hrun
    cases hrun
    exact .inl (.failed _)
  | some name =>
    rw [hname] at hrun
    obtain ⟨made, s₁, hmake, hrun⟩ := run_bind_eq hrun
    rw [hmake]
    refine .inr ?_
    cases made with
    | error fault =>
      cases hrun
      exact .failed _
    | ok _ =>
      obtain ⟨stamp, s₂, hstamp, hrun⟩ := run_bind_eq hrun
      have hs₂ := hdisk.stamp s₁
      rw [hstamp] at hs₂
      have hslash := slash_not_mem_temporaryName stamp (Path.slash_not_mem_fileName hname)
      obtain ⟨init, hsegments⟩ := Path.segments_child (folderOf p) hslash
      exact hs₂ ▸ hdisk.replaceBy hsegments (temporaryName_idle name stamp)
        (temporaryName_dots name stamp) hrun

/-- A path that was saved to leads to the text that was saved. -/
theorem read_save (hdisk : disk.Faithful tree) {p : Text} {d : Diagram}
    (hrun : (disk.save p d).run s = (.ok (), s')) : (tree s').read p = .ok d.toDocument := by
  rcases hdisk.replace hrun with h | h
  · exact h.read_eq
  · exact h.read_eq

/-- Saving over a file makes no folder. -/
theorem save_of_file (hdisk : disk.Faithful tree) {p : Text} {d : Diagram} {place : Place}
    {content : Content} {result : Except StoreError Unit}
    (hfile : (tree s).locate p = .ok (place, .file content))
    (hrun : (disk.save p d).run s = (result, s')) :
    Saves (tree s) p d.toDocument result (tree s') := by
  obtain ⟨folder, name, -, hnames⟩ := exists_names hfile
  obtain ⟨init, hsegments, hleads⟩ := hnames.way
  rcases hdisk.replace hrun with h | h
  · exact h
  · rwa [hdisk.makeFolders_eq (locate_folderOf hsegments hnames.idle hleads)] at h

theorem reset_eq_ok {p : Text} {d : Diagram} (hrun : (disk.reset p).run s = (.ok d, s')) :
    d = Diagram.starter := by
  unfold reset at hrun
  obtain ⟨saved, s₁, -, hrun⟩ := run_bind_eq hrun
  cases saved with
  | ok _ =>
    cases hrun
    rfl
  | error e => cases hrun

/-- Loading a file of JSON text changes nothing, and gives its diagram if it gives one. -/
theorem load_of_read (hdisk : disk.Faithful tree) {p content : Text} {raw : Json}
    {result : Except StoreError Diagram} (hread : (tree s).read p = .ok content)
    (hraw : Json.read? content = some raw) (hrun : (disk.load p).run s = (result, s')) :
    tree s' = tree s ∧ ∀ d, result = .ok d → d = Diagram.ofJson raw := by
  unfold Disk.load at hrun
  obtain ⟨found, s₁, hlook, hrun⟩ := run_bind_eq hrun
  have hlooked := hdisk.read s p
  rw [hlook, hread] at hlooked
  cases hlooked with
  | done h hs₁ =>
    cases h
    dsimp only at hrun
    rw [hraw] at hrun
    cases hrun
    exact ⟨hs₁, fun d h => (Except.ok.inj h).symm⟩
  | failed hm hs₁ =>
    split at hrun
    · next h => cases h
    · next h =>
      cases h
      cases hm rfl
    · cases hrun
      exact ⟨hs₁, nofun⟩

/-- What is loaded is the diagram of a file of JSON text, or the starter. -/
theorem load_eq_ok (hdisk : disk.Faithful tree) {p : Text} {d : Diagram}
    (hrun : (disk.load p).run s = (.ok d, s')) :
    (∃ content raw, (tree s).read p = .ok content ∧ Json.read? content = some raw ∧
      d = Diagram.ofJson raw) ∨ d = Diagram.starter := by
  have hload := hrun
  unfold Disk.load at hrun
  obtain ⟨found, s₁, hlook, hrun⟩ := run_bind_eq hrun
  have hlooked := hdisk.read s p
  rw [hlook] at hlooked
  cases hlooked with
  | @done content _ hread hs₁ =>
    dsimp only at hrun
    cases hraw : Json.read? content with
    | some raw =>
      obtain ⟨-, hd⟩ := hdisk.load_of_read hread hraw hload
      exact .inl ⟨content, raw, hread, hraw, hd d rfl⟩
    | none =>
      rw [hraw] at hrun
      exact .inr (reset_eq_ok hrun)
  | failed hm hs₁ =>
    split at hrun
    · next h => cases h
    · exact .inr (reset_eq_ok hrun)
    · cases hrun

end Faithful
end Disk

namespace Tree

variable {t u : Tree} {p : Text}

theorem read_save {stamp : Nat} {d : Diagram}
    (h : ((Tree.disk stamp).save p d).run t = (.ok (), u)) : u.read p = .ok d.toDocument :=
  (faithful_disk stamp).read_save h

/-- Loading a file of JSON text reads its diagram and touches nothing. -/
theorem load_of_read (stamp : Nat) {content : Text} {document : Json} (hr : t.read p = .ok content)
    (hj : Json.read? content = some document) :
    ((Tree.disk stamp).load p).run t = (.ok (Diagram.ofJson document), t) := by
  have hread : ((Tree.disk stamp).read p).run t = (t.read p, t) := rfl
  unfold Disk.load
  rw [StateT.run_bind, hread, hr]
  dsimp only [Bind.bind]
  rw [hj]
  rfl

end Tree
end DiagramDoc
