import DiagramDoc.Proofs.Document.Normalize

/-!
# Diagrams that a document holds whole

Reading the document of a diagram gives the diagram itself, if it is one that reading could have
given: its identifiers are in order and small enough to be read, and so are its counter, its
references and its numbers. Texts are no matter.
-/

namespace DiagramDoc.Diagram

/-- Identifiers, references and numbers are such as a document can hold, and so is the counter. -/
structure Lossless (d : Diagram) : Prop extends d.Valid, d.Storable where
  counted : 1 ≤ d.counter
  counter_read : d.counter ≤ EntityId.largestRead

theorem ofJson_toJson {d : Diagram} (h : d.Lossless) : ofJson d.toJson = d := by
  obtain ⟨hv, hids, hcounter⟩ :=
    (accepts_coerce_toJson d).reconcile_of_le h.toValid h.counter_read
  have hcounted := h.counted
  rw [ofJson_eq]
  refine eq_of_anonymous ?_ hids (by omega)
  rw [anonymous_reconcile, anonymous_coerce_toJson h.toStorable]

end DiagramDoc.Diagram
