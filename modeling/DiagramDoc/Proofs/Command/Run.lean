import DiagramDoc.Command.Run
import DiagramDoc.Proofs.Files.Faithful

/-!
# What a run does to its disk

Each command does at most one load and one save. A run is taken apart into these, on any disk.
-/

namespace DiagramDoc.Command

variable {σ : Type} {disk : Disk (StateM σ)} {s s' : σ} {program : Text} {words : List Text}
  {o : Options} {outcome : Outcome} {data : Text} {d : Diagram} {result : Except RunError Text}

theorem run_of_unread (disk : Disk (StateM σ)) (program : Text) (s : σ)
    (ho : Options.read? words = none) :
    (run disk program words).run s = (⟨2, [], usage program⟩, s) := by
  unfold run
  rw [ho]
  rfl

/-- A command line that is read ends with the output of its command, or with its error. -/
theorem exists_execute (ho : Options.read? words = some o)
    (hrun : (run disk program words).run s = (outcome, s')) :
    (∃ output, outcome = ⟨0, output, []⟩ ∧ (execute disk o).run s = (.ok output, s')) ∨
      ∃ e, outcome = ⟨1, [], "mermaid-magic: ".toList ++ RunError.message e⟩ ∧
        (execute disk o).run s = (.error e, s') := by
  unfold run at hrun
  rw [ho] at hrun
  obtain ⟨result, s₁, hexecute, hrun⟩ := run_bind_eq hrun
  cases result with
  | ok output =>
    cases hrun
    exact .inl ⟨output, rfl, hexecute⟩
  | error e =>
    cases hrun
    exact .inr ⟨e, rfl, hexecute⟩

theorem execute_eq_ok (ho : Options.read? words = some o)
    (hrun : (run disk program words).run s = (outcome, s')) (hcode : outcome.code = 0) :
    ∃ output, (execute disk o).run s = (.ok output, s') := by
  rcases exists_execute ho hrun with ⟨output, -, hexecute⟩ | ⟨e, rfl, -⟩
  · exact ⟨output, hexecute⟩
  · cases hcode

/-- A command that prints the diagram ends as its loading does. -/
theorem exists_load {use : Diagram → Text}
    (hrun : (withDiagram disk data use).run s = (result, s')) :
    (∃ d, (disk.load data).run s = (.ok d, s') ∧ result = .ok (use d ++ ['\n'])) ∨
      ∃ e, (disk.load data).run s = (.error e, s') ∧ result = .error (.store e) := by
  unfold withDiagram at hrun
  obtain ⟨loaded, s₁, hload, hrun⟩ := run_bind_eq hrun
  cases loaded with
  | ok d =>
    cases hrun
    exact .inl ⟨d, hload, rfl⟩
  | error e =>
    cases hrun
    exact .inr ⟨e, hload, rfl⟩

/-- A diagram is saved without a word, or with the error of saving it. -/
theorem exists_save (hrun : (saveSilently disk data d).run s = (result, s')) :
    ((disk.save data d).run s = (.ok (), s') ∧ result = .ok []) ∨
      ∃ e, (disk.save data d).run s = (.error e, s') ∧ result = .error (.store e) := by
  unfold saveSilently at hrun
  obtain ⟨saved, s₁, hsave, hrun⟩ := run_bind_eq hrun
  cases saved with
  | ok _ =>
    cases hrun
    exact .inl ⟨hsave, rfl⟩
  | error e =>
    cases hrun
    exact .inr ⟨e, hsave, rfl⟩

theorem saveSilently_eq_ok {output : Text}
    (h : (saveSilently disk data d).run s = (.ok output, s')) :
    (disk.save data d).run s = (.ok (), s') := by
  rcases exists_save h with ⟨hsave, -⟩ | ⟨e, -, he⟩
  · exact hsave
  · cases he

/-- A command that prints the diagram prints what is made of the loaded one. -/
theorem run_print {use : Diagram → Text} (ho : Options.read? words = some o)
    (hexecute : execute disk o = withDiagram disk data use)
    (hload : (disk.load data).run s = (.ok d, s')) (program : Text) :
    (run disk program words).run s = (⟨0, use d ++ ['\n'], []⟩, s') := by
  unfold run
  rw [ho]
  dsimp only
  rw [hexecute]
  unfold withDiagram
  simp only [StateT.run_bind]
  rw [hload]
  rfl

end DiagramDoc.Command
