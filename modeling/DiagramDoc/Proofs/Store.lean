import DiagramDoc.Proofs.Document.Lossless
import DiagramDoc.Proofs.Files.Saving

/-!
# Saving and loading

A file that was saved without a fault holds the text that was to be saved, whatever stood there and
wherever the path leads. Loading it gives the diagram, if a document can hold it whole.
-/

namespace DiagramDoc

namespace Diagram

/-- A diagram that a document holds whole is read back from its document, and from a file that it
was saved to, whatever this file and the tree around it were before. -/
theorem load_save {d : Diagram} (h : d.Lossless) :
    ofJson d.toJson = d ∧
      ∀ (stamp stamp' : Nat) (p : Text) (t u : Tree), Json.read? d.toDocument = some d.toJson →
        ((Tree.disk stamp).save p d).run t = (.ok (), u) →
          ((Tree.disk stamp').load p).run u = (.ok d, u) := by
  have hd := ofJson_toJson h
  refine ⟨hd, fun stamp stamp' p t u hj hs => ?_⟩
  have hload := Tree.load_of_read stamp' (Tree.read_save hs) hj
  rwa [hd] at hload

/-- References that name nothing, texts of any kind, and numbers that are not whole. -/
def uneven : Diagram where
  kind := .journey
  counter := 0x1FFFFFFFFFFFFF
  flowchart :=
    { nodes := [{ id := 9, label := "\u0000\t\"\\ü\r\n".toList, x := -Number.ofNat 7 / 4, width := 1 }]
      edges := [{ id := 2, source := 0, target := 0x1FFFFFFFFFFFFF, stroke := [] }] }
  sequence := { messages := [{ id := 0x1FFFFFFFFFFFFE, sender := 9, receiver := 5, label := [] }] }
  pie := { title := "null".toList, slices := [{ id := 1, label := [], value := 0 }] }
  gantt := { dateFormat := [], tasks := [{ id := 3, group := [], label := "true".toList }] }
  journey := { steps := [{ id := 4, group := [], task := "0".toList, personas := [[], []] }] }

theorem lossless_uneven : uneven.Lossless where
  present := by decide +kernel
  distinct := by decide +kernel
  below := by decide +kernel
  nodes := List.forall_mem_singleton.mpr
    ⟨⟨by decide +kernel, by decide +kernel⟩, ⟨by decide +kernel, by decide +kernel⟩,
      ⟨by decide +kernel, by decide +kernel⟩, ⟨by decide +kernel, by decide +kernel⟩⟩
  edges := List.forall_mem_singleton.mpr ⟨by decide, by decide⟩
  messages := List.forall_mem_singleton.mpr ⟨by decide, by decide⟩
  slices := List.forall_mem_singleton.mpr ⟨by decide +kernel, by decide +kernel⟩
  steps := List.forall_mem_singleton.mpr ⟨by decide +kernel, by decide +kernel⟩
  counted := by decide
  counter_read := by decide

/-- One file, which holds no text, in the only folder. -/
def oneFile : Tree :=
  ⟨[(["data".toList, "d.json".toList], .file (.bytes [0xFF])), (["data".toList], .folder)]⟩

theorem load_save_uneven :
    ofJson uneven.toJson = uneven ∧
      (∃ u, ((Tree.disk 3).save "data/../data//x/d.json".toList uneven).run oneFile = (.ok (), u) ∧
        ((Tree.disk 4).load "data/../data//x/d.json".toList).run u = (.ok uneven, u)) ∧
      ∃ u, ((Tree.disk 3).save "./data/d.json".toList uneven).run oneFile = (.ok (), u) ∧
        ((Tree.disk 3).load "./data/d.json".toList).run u = (.ok uneven, u) := by
  obtain ⟨hd, hload⟩ := load_save lossless_uneven
  have hj : Json.read? uneven.toDocument = some uneven.toJson := by decide +kernel
  have hnew : (((Tree.disk 3).save "data/../data//x/d.json".toList uneven).run oneFile).1 =
      .ok () := by decide +kernel
  have hover : (((Tree.disk 3).save "./data/d.json".toList uneven).run oneFile).1 = .ok () := by
    decide +kernel
  have hpair : ∀ saved : Except StoreError Unit × Tree, saved.1 = .ok () →
      saved = (.ok (), saved.2) := fun _ h => Prod.ext h rfl
  have hnew := hpair _ hnew
  have hover := hpair _ hover
  exact ⟨hd, ⟨_, hnew, hload 3 4 _ _ _ hj hnew⟩, _, hover, hload 3 3 _ _ _ hj hover⟩

/-- A counter that has not begun to count is read as one. -/
theorem not_load_save_uncounted :
    ¬ ∀ d : Diagram, d.Valid → d.Storable → d.counter ≤ EntityId.largestRead →
      ofJson d.toJson = d := by
  intro h
  have hstorable : ({ counter := 0 } : Diagram).Storable := {
    nodes := List.forall_mem_nil _
    edges := List.forall_mem_nil _
    messages := List.forall_mem_nil _
    slices := List.forall_mem_nil _
    steps := List.forall_mem_nil _ }
  have hsame := h { counter := 0 } ⟨by decide, by decide, by decide⟩ hstorable (by decide)
  exact absurd hsame (by decide +kernel)

end Diagram
end DiagramDoc
