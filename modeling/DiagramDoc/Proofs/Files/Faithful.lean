import DiagramDoc.Files.Tree

/-!
# Disks that may fail

A disk is faithful to the tree that its world shows when it does what the tree does, or fails. What
fails leaves the tree as it was, but for a file that may be left with any content by a failed write.
Removing a file does not fail.
-/

namespace DiagramDoc

variable {σ α β : Type}

theorem run_bind_eq {x : StateM σ α} {f : α → StateM σ β} {s : σ} {r : β × σ}
    (h : (x >>= f).run s = r) : ∃ a s', x.run s = (a, s') ∧ (f a).run s' = r :=
  ⟨_, _, rfl, h⟩

namespace Disk

/-- How a look at a tree can end. Something is said to be missing only where it is. -/
inductive Looks (tree : σ → Tree) (t : Tree) (found : Except Fault α) : Except Fault α × σ → Prop
  | done {a : α} {s : σ} (h : found = .ok a) (hs : tree s = t) : Looks tree t found (.ok a, s)
  | failed {fault : Fault} {s : σ} (hm : fault = .notFound → found = .error .notFound)
      (hs : tree s = t) : Looks tree t found (.error fault, s)

/-- How a change of a tree can end, and what it may leave when it fails. -/
inductive Acts (tree : σ → Tree) (left : Tree → Prop) (expected : Except Fault Tree) :
    Except Fault Unit × σ → Prop
  | done {s : σ} (h : expected = .ok (tree s)) : Acts tree left expected (.ok (), s)
  | failed {fault : Fault} {s : σ} (hm : fault = .notFound → expected = .error .notFound)
      (hs : left (tree s)) : Acts tree left expected (.error fault, s)

/-- Nothing was written, or anything. -/
inductive Partly (t : Tree) (p : Text) : Tree → Prop
  | untouched : Partly t p t
  | written {place : Place} {old : Content} (h : t.locate p = .ok (place, .file old))
      (new : Content) : Partly t p (t.put place (.file new))

theorem Partly.of_write {t u : Tree} {p content : Text} (h : t.write p content = .ok u) :
    Partly t p u := by
  unfold Tree.write at h
  split at h
  · next hlocate =>
    cases h
    exact .written hlocate _
  · cases h
  · cases h

structure Faithful (disk : Disk (StateM σ)) (tree : σ → Tree) : Prop where
  read : ∀ s p, Looks tree (tree s) ((tree s).read p) ((disk.read p).run s)
  isFolder : ∀ s p, tree ((disk.isFolder p).run s).2 = tree s ∧
    (((disk.isFolder p).run s).1 = true → (tree s).isFolder p = true)
  makeFolder : ∀ s p,
    Acts tree (· = tree s) ((tree s).make p .folder) ((disk.makeFolder p).run s)
  create : ∀ s p,
    Acts tree (· = tree s) ((tree s).make p (.file (.text []))) ((disk.create p).run s)
  write : ∀ s p content,
    Acts tree (Partly (tree s) p) ((tree s).write p content) ((disk.write p content).run s)
  rename : ∀ s source target,
    Acts tree (· = tree s) ((tree s).rename source target) ((disk.rename source target).run s)
  remove : ∀ s p, tree ((disk.remove p).run s).2 = (tree s).remove p
  stamp : ∀ s, tree (disk.stamp.run s).2 = tree s

theorem Faithful.tree_isFolder {disk : Disk (StateM σ)} {tree : σ → Tree} {s s' : σ} {p : Text}
    {found : Bool} (hdisk : disk.Faithful tree) (hrun : (disk.isFolder p).run s = (found, s')) :
    tree s' = tree s := by
  have hs := (hdisk.isFolder s p).1
  rwa [hrun] at hs

end Disk

namespace Tree

theorem run_step (operation : Tree → Except Fault Tree) (t : Tree) :
    (step operation).run t =
      match operation t with
      | .ok u => (.ok (), u)
      | .error fault => (.error fault, t) := by
  unfold step
  rw [StateT.run_bind, StateT.run_get]
  dsimp only [Bind.bind]
  cases operation t <;> rfl

theorem acts_step (operation : Tree → Except Fault Tree) (t : Tree) {left : Tree → Prop}
    (hleft : left t) : Disk.Acts id left (operation t) ((step operation).run t) := by
  rw [run_step]
  cases h : operation t with
  | ok u => exact .done rfl
  | error fault => exact .failed (fun hm => by rw [hm]) hleft

theorem looks_read (tree : σ → Tree) (s : σ) (p : Text) :
    Disk.Looks tree (tree s) ((tree s).read p) ((tree s).read p, s) := by
  cases (tree s).read p with
  | ok content => exact .done rfl rfl
  | error fault => exact .failed (fun hm => hm ▸ rfl) rfl

/-- The disk of a tree fails only where the tree does. -/
theorem faithful_disk (stamp : Nat) : (disk stamp).Faithful id where
  read := looks_read id
  isFolder _ _ := ⟨rfl, id⟩
  makeFolder t p := acts_step (fun t => t.make p .folder) t rfl
  create t p := acts_step (fun t => t.make p (.file (.text []))) t rfl
  write t p content := acts_step (fun t => t.write p content) t .untouched
  rename t source target := acts_step (fun t => t.rename source target) t rfl
  remove _ _ := rfl
  stamp _ := rfl

/-! ### A disk that wears out -/

/-- A change that uses up one of those that are left. When there are none it breaks down. -/
def wearing (operation : Tree → Except Fault Tree) (broken : Tree → Tree) :
    StateM (Tree × Nat) (Except Fault Unit) :=
  modifyGet fun
    | (t, 0) => (.error (.other []), broken t, 0)
    | (t, n + 1) =>
      match operation t with
      | .ok u => (.ok (), u, n)
      | .error fault => (.error fault, t, n)

/-- Writes no more than the first character. -/
def breakOff (p content : Text) (t : Tree) : Tree :=
  match t.write p (content.take 1) with
  | .ok u => u
  | .error _ => t

/-- The disk of a tree that makes so many changes. Then each fails, but files are still removed. -/
def wornDisk (stamp : Nat) : Disk (StateM (Tree × Nat)) where
  read p := do pure ((← get).1.read p)
  isFolder p := do pure ((← get).1.isFolder p)
  makeFolder p := wearing (fun t => t.make p .folder) id
  create p := wearing (fun t => t.make p (.file (.text []))) id
  write p content := wearing (fun t => t.write p content) (breakOff p content)
  rename source target := wearing (fun t => t.rename source target) id
  remove p := modify fun s => (s.1.remove p, s.2)
  stamp := pure stamp

theorem acts_wearing (operation : Tree → Except Fault Tree) (broken : Tree → Tree)
    (s : Tree × Nat) {left : Tree → Prop} (hleft : left s.1) (hbroken : left (broken s.1)) :
    Disk.Acts Prod.fst left (operation s.1) ((wearing operation broken).run s) := by
  obtain ⟨t, n⟩ := s
  cases n with
  | zero => exact .failed nofun hbroken
  | succ n =>
    change Disk.Acts Prod.fst left (operation t) (match operation t with
      | .ok u => (.ok (), u, n)
      | .error fault => (.error fault, t, n))
    cases h : operation t with
    | ok u => exact .done rfl
    | error fault => exact .failed (fun hm => by rw [hm]) hleft

theorem partly_breakOff (t : Tree) (p content : Text) :
    Disk.Partly t p (t.breakOff p content) := by
  unfold breakOff
  split
  · next h => exact .of_write h
  · exact .untouched

/-- It is faithful however many changes it makes, so any of them may be the first to fail. -/
theorem faithful_wornDisk (stamp : Nat) : (wornDisk stamp).Faithful Prod.fst where
  read := looks_read Prod.fst
  isFolder _ _ := ⟨rfl, id⟩
  makeFolder s p := acts_wearing (fun t => t.make p .folder) id s rfl rfl
  create s p := acts_wearing (fun t => t.make p (.file (.text []))) id s rfl rfl
  write s p content :=
    acts_wearing (fun t => t.write p content) (breakOff p content) s .untouched
      (partly_breakOff s.1 p content)
  rename s source target := acts_wearing (fun t => t.rename source target) id s rfl rfl
  remove _ _ := rfl
  stamp _ := rfl

end Tree
end DiagramDoc
