import DiagramDoc.Proofs.Command.Run
import DiagramDoc.Proofs.Document.Normalize
import DiagramDoc.Proofs.Files.Saving

/-!
# Documents that are kept

A run whose data path leads to a file of JSON text either leaves all files as they are, or gives
this file a new document and leaves the others. Whatever fails on the way, nothing is changed.
-/

namespace DiagramDoc.Command

/-- The data path of a command line, if its command has one. -/
def UsesData (words : List Text) (data : Text) : Prop :=
  ∀ o, Options.read? words = some o → o.action ≠ .schema → o.data.getD defaultDataFile = data

/-- The file of a document was rewritten with `d`, and `reread` is what is loaded from it if JSON
text is read back as it was printed. -/
structure Stores (t : Tree) (data : Text) (d reread : Diagram) (u : Tree) : Prop where
  rewrites : Rewrites t data d.toDocument u
  loads : Json.read? d.toDocument = some d.toJson →
    ∀ stamp, ((Tree.disk stamp).load data).run u = (.ok reread, u)

/-- What a command that ends well does to the tree of a document. -/
def Action.Does (t : Tree) (data : Text) (loaded : Diagram) : Action → Tree → Prop
  | .writeText _, u | .writeTable, u | .schema, u => u = t
  | .normalize, u => Stores t data loaded loaded u
  | .readText source, u => ∃ text d, t.read source = .ok text ∧
    Diagram.readText text loaded = .ok d ∧ Stores t data d (Diagram.ofJson d.toJson) u

/-- A command fails and changes nothing, or it ends well. -/
inductive Ends (t : Tree) (well : Tree → Prop) : Except RunError Text → Tree → Prop
  | failed (e : RunError) : Ends t well (.error e) t
  | well {u : Tree} (output : Text) (h : well u) : Ends t well (.ok output) u

theorem Ends.mono {t u : Tree} {well well' : Tree → Prop} {result : Except RunError Text}
    (h : Ends t well result u) (hw : ∀ u, well u → well' u) : Ends t well' result u := by
  cases h with
  | failed e => exact .failed e
  | well output h => exact .well output (hw _ h)

section Readable

variable {σ : Type} {disk : Disk (StateM σ)} {tree : σ → Tree} {s s' : σ} {data content : Text}
  {raw : Json} {d : Diagram} {result : Except RunError Text}
  (hdisk : disk.Faithful tree) (hread : (tree s).read data = .ok content)
include hdisk hread

theorem ends_saveSilently (hrun : (saveSilently disk data d).run s = (result, s')) :
    Ends (tree s) (Stores (tree s) data d (Diagram.ofJson d.toJson)) result (tree s') := by
  obtain ⟨place, hfile⟩ := Tree.read_eq_ok.mp hread
  rcases exists_save hrun with ⟨hsave, rfl⟩ | ⟨e, hsave, rfl⟩
  · have hsaves := hdisk.save_of_file hfile hsave
    exact .well [] ⟨hsaves.rewrites hfile,
      fun hj stamp => Tree.load_of_read stamp hsaves.read_eq hj⟩
  · rw [(hdisk.save_of_file hfile hsave).eq_of_error]
    exact .failed _

variable (hraw : Json.read? content = some raw)
include hraw

theorem ends_withDiagram {use : Diagram → Text}
    (hrun : (withDiagram disk data use).run s = (result, s')) :
    Ends (tree s) (· = tree s) result (tree s') := by
  rcases exists_load hrun with ⟨d, hload, rfl⟩ | ⟨e, hload, rfl⟩
  · exact .well _ (hdisk.load_of_read hread hraw hload).1
  · rw [(hdisk.load_of_read hread hraw hload).1]
    exact .failed _

theorem ends_normalize (hrun : (normalize disk data).run s = (result, s')) :
    Ends (tree s) (Action.normalize.Does (tree s) data (Diagram.ofJson raw)) result (tree s') := by
  unfold normalize at hrun
  obtain ⟨loaded, s₁, hload, hrun⟩ := run_bind_eq hrun
  obtain ⟨hs₁, hd⟩ := hdisk.load_of_read hread hraw hload
  rw [← hs₁] at hread ⊢
  cases loaded with
  | error e =>
    cases hrun
    exact .failed _
  | ok d =>
    cases hd d rfl
    refine (ends_saveSilently hdisk hread hrun).mono fun u h => ?_
    rwa [Diagram.reread_ofJson] at h

theorem ends_readText {source : Text} (hrun : (readText disk data source).run s = (result, s')) :
    Ends (tree s) ((Action.readText source).Does (tree s) data (Diagram.ofJson raw)) result
      (tree s') := by
  unfold readText at hrun
  obtain ⟨found, s₁, hlook, hrun⟩ := run_bind_eq hrun
  have hfound := hdisk.read s source
  rw [hlook] at hfound
  cases hfound with
  | failed _ hs₁ =>
    cases hrun
    rw [hs₁]
    exact .failed _
  | @done text _ hsource hs₁ =>
    obtain ⟨loaded, s₂, hload, hrun⟩ := run_bind_eq hrun
    rw [← hs₁] at hread hsource ⊢
    obtain ⟨hs₂, hd⟩ := hdisk.load_of_read hread hraw hload
    rw [← hs₂] at hread hsource ⊢
    cases loaded with
    | error e =>
      cases hrun
      exact .failed _
    | ok previous =>
      cases hd previous rfl
      dsimp only at hrun
      cases hparse : Diagram.readText text (Diagram.ofJson raw) with
      | error e =>
        rw [hparse] at hrun
        cases hrun
        exact .failed _
      | ok d =>
        rw [hparse] at hrun
        refine (ends_saveSilently hdisk hread hrun).mono fun u h => ?_
        exact ⟨text, d, hsource, hparse, h⟩

/-- A command that names its data path does to the document what it is for, or fails. -/
theorem ends_execute {o : Options} (ho : o.action ≠ .schema → o.data.getD defaultDataFile = data)
    (hrun : (execute disk o).run s = (result, s')) :
    Ends (tree s) (o.action.Does (tree s) data (Diagram.ofJson raw)) result (tree s') := by
  unfold execute at hrun
  cases ha : o.action with
  | schema =>
    rw [ha] at hrun
    cases hrun
    exact .well _ rfl
  | writeText marked =>
    rw [ha, ho (by simp [ha])] at hrun
    exact ends_withDiagram hdisk hread hraw hrun
  | writeTable =>
    rw [ha, ho (by simp [ha])] at hrun
    exact ends_withDiagram hdisk hread hraw hrun
  | normalize =>
    rw [ha, ho (by simp [ha])] at hrun
    exact ends_normalize hdisk hread hraw hrun
  | readText source =>
    rw [ha, ho (by simp [ha])] at hrun
    exact ends_readText hdisk hread hraw hrun

end Readable

/-- On any disk that does what is asked or fails: a run that ends with an error leaves all as it
was, and one that ends well does no more than its command. -/
theorem run_harmless {σ : Type} {disk : Disk (StateM σ)} {tree : σ → Tree} {s s' : σ}
    {program data content : Text} {words : List Text} {raw : Json} {outcome : Outcome}
    (hdisk : disk.Faithful tree) (hwords : UsesData words data)
    (hread : (tree s).read data = .ok content) (hraw : Json.read? content = some raw)
    (hrun : (run disk program words).run s = (outcome, s')) :
    (outcome.code ≠ 0 → tree s' = tree s) ∧
      (outcome.code = 2 ↔ Options.read? words = none) ∧
        ∀ o, Options.read? words = some o → outcome.code = 0 →
          o.action.Does (tree s) data (Diagram.ofJson raw) (tree s') := by
  cases ho : Options.read? words with
  | none =>
    rw [run_of_unread disk program s ho] at hrun
    cases hrun
    exact ⟨fun _ => rfl, ⟨fun _ => rfl, fun _ => rfl⟩, nofun⟩
  | some o =>
    rcases exists_execute ho hrun with ⟨output, rfl, hexecute⟩ | ⟨e, rfl, hexecute⟩
    · have hends := ends_execute hdisk hread hraw (hwords o ho) hexecute
      refine ⟨fun hcode => absurd rfl hcode, ⟨nofun, nofun⟩, fun o' ho' _ => ?_⟩
      cases ho'
      generalize hu : tree s' = u at hends ⊢
      cases hends with
      | well _ h => exact h
    · have hends := ends_execute hdisk hread hraw (hwords o ho) hexecute
      refine ⟨fun _ => ?_, ⟨nofun, nofun⟩, fun _ _ hcode => nomatch hcode⟩
      generalize hu : tree s' = u at hends ⊢
      cases hends with
      | failed _ => rfl

/-! ### A disk with little room -/

/-- A disk whose files have room for `room` characters; a longer text is cut off there. -/
def smallDisk (stamp room : Nat) : Disk (StateM Tree) :=
  { Tree.disk stamp with
    write := fun p content =>
      if content.length ≤ room then (Tree.disk stamp).write p content
      else do
        let _ ← (Tree.disk stamp).write p (content.take room)
        pure (.error (.other "No space left on device (os error 28)".toList)) }

theorem faithful_smallDisk (stamp room : Nat) : (smallDisk stamp room).Faithful id :=
  { Tree.faithful_disk stamp with
    write := fun t p content => by
      have hdisk := Tree.faithful_disk stamp
      by_cases hroom : content.length ≤ room
      · have hwrite : (smallDisk stamp room).write p content = (Tree.disk stamp).write p content :=
          if_pos hroom
        rw [hwrite]
        exact hdisk.write t p content
      · have hwrite : (smallDisk stamp room).write p content =
            ((Tree.disk stamp).write p (content.take room) >>= fun _ =>
              pure (.error (.other "No space left on device (os error 28)".toList))) :=
          if_neg hroom
        rw [hwrite]
        refine .failed nofun ?_
        have hcut := hdisk.write t p (content.take room)
        change Disk.Partly t p (((Tree.disk stamp).write p (content.take room)).run t).2
        generalize ((Tree.disk stamp).write p (content.take room)).run t = cut at hcut ⊢
        cases hcut with
        | done h => exact .of_write h
        | failed _ hs => exact hs }

def untidyText : Text :=
  ("\x7b\"type\": \"pie\", \"pie\": \x7b\"slices\": " ++
    "[\x7b\"id\": 7, \"value\": 2.5\x7d, \x7b\"id\": 7\x7d, 0]\x7d\x7d").toList

/-- Two slices with one identifier, and something that is no slice. -/
def untidyDocument : Json :=
  .object
    [("type".toList, .text "pie".toList),
     ("pie".toList, .object
       [("slices".toList, .array
         [.object [("id".toList, .integer 7), ("value".toList, .real (Number.ofNat 5 / 2))],
          .object [("id".toList, .integer 7)], .integer 0])])]

def cupboard : Tree :=
  ⟨[(["docs".toList, "d.json".toList], .file (.text untidyText)), (["docs".toList], .folder),
    (["s.mmd".toList], .file (.text "pie\nA: 1".toList))]⟩

/-- Normalizing and importing into the same file, by two ways to it. -/
def tidying : List Text := ["--data", "docs//./d.json", "normalize"].map String.toList

def replacing : List Text := ["import", "s.mmd", "--data", "docs/../docs/d.json"].map String.toList

theorem run_pair (disk : Disk (StateM Tree)) (words : List Text) (t : Tree) :
    (run disk [] words).run t = (((run disk [] words).run t).1, ((run disk [] words).run t).2) :=
  rfl

theorem run_harmless_cupboard :
    ((run (smallDisk 1 20) [] tidying).run cupboard).2 = cupboard ∧
      ((run (smallDisk 1 20) [] replacing).run cupboard).2 = cupboard ∧
        (∀ stamp, ((Tree.disk stamp).load "docs//./d.json".toList).run
          ((run (Tree.disk 1) [] tidying).run cupboard).2 =
            (.ok (Diagram.ofJson untidyDocument),
              ((run (Tree.disk 1) [] tidying).run cupboard).2)) ∧
          (Action.readText "s.mmd".toList).Does cupboard "docs/../docs/d.json".toList
            (Diagram.ofJson untidyDocument) ((run (Tree.disk 1) [] replacing).run cupboard).2 := by
  have hdata : UsesData tidying "docs//./d.json".toList ∧
      UsesData replacing "docs/../docs/d.json".toList := by
    refine ⟨fun o ho _ => ?_, fun o ho _ => ?_⟩ <;> cases ho <;> rfl
  have hcomputed : Json.read? untidyText = some untidyDocument ∧
      ((run (smallDisk 1 20) [] tidying).run cupboard).1.code = 1 ∧
      ((run (smallDisk 1 20) [] replacing).run cupboard).1.code = 1 ∧
      ((run (Tree.disk 1) [] tidying).run cupboard).1.code = 0 ∧
      ((run (Tree.disk 1) [] replacing).run cupboard).1.code = 0 ∧
      Json.read? (Diagram.ofJson untidyDocument).toDocument =
        some (Diagram.ofJson untidyDocument).toJson := by decide +kernel
  obtain ⟨hraw, htidy, hreplace, htidied, hreplaced, hjson⟩ := hcomputed
  have hdisk := Tree.faithful_disk 1
  have hsmall := faithful_smallDisk 1 20
  have hread : cupboard.read "docs//./d.json".toList = .ok untidyText ∧
      cupboard.read "docs/../docs/d.json".toList = .ok untidyText := ⟨rfl, rfl⟩
  refine ⟨?_, ?_, ?_, ?_⟩
  · have hrun := run_pair (smallDisk 1 20) tidying cupboard
    exact (run_harmless hsmall hdata.1 hread.1 hraw hrun).1 (by rw [htidy]; decide)
  · have hrun := run_pair (smallDisk 1 20) replacing cupboard
    exact (run_harmless hsmall hdata.2 hread.2 hraw hrun).1 (by rw [hreplace]; decide)
  · have hrun := run_pair (Tree.disk 1) tidying cupboard
    exact ((run_harmless hdisk hdata.1 hread.1 hraw hrun).2.2 _ rfl htidied).loads hjson
  · have hrun := run_pair (Tree.disk 1) replacing cupboard
    exact (run_harmless hdisk hdata.2 hread.2 hraw hrun).2.2 _ rfl hreplaced

end DiagramDoc.Command
