import DiagramDoc.Proofs.Dialect.Line
import DiagramDoc.Proofs.Dialect.ReadText
import Mathlib.Data.List.Iterate

/-!
# Identifiers in a row

Pies, gantt charts and journeys take nothing but fresh identifiers, one for a line at most. So their
entities are numbered in a row, from the next fresh identifier on.
-/

namespace DiagramDoc

/-- Counting is exact before its end. -/
theorem EntityId.iterate_successor {n k : Nat} (h : n + k < largest) :
    successor^[k] n = n + k ∧ List.iterate successor n k = List.range' n k := by
  induction k generalizing n with
  | zero => exact ⟨rfl, rfl⟩
  | succ k ih =>
    have hs : successor n = n + 1 := successor_eq (by omega)
    obtain ⟨hlast, hrow⟩ := ih (n := n + 1) (by omega)
    rw [Function.iterate_succ_apply, List.iterate, hs, hlast, hrow, List.range'_succ]
    exact ⟨by omega, rfl⟩

theorem EntityId.iterate_successor_le (k n : Nat) : successor^[k] n ≤ n + k := by
  induction k generalizing n with
  | zero => exact Nat.le_refl n
  | succ k ih =>
    have hs := successor_le n
    have hk := ih (successor n)
    rw [Function.iterate_succ_apply]
    omega

namespace Dialect

namespace Scope

/-- From `s` to `t` at most `n` fresh identifiers, one after the other, were given to entities behind
those before. -/
def InRow (n : Nat) (s : Scope) (before : List Nat) (t : Scope) (after : List Nat) : Prop :=
  ∃ k ≤ n, after = before ++ List.iterate EntityId.successor s.next k ∧
    t.next = EntityId.successor^[k] s.next

theorem InRow.refl (n : Nat) (s : Scope) (ids : List Nat) : InRow n s ids s ids :=
  ⟨0, Nat.zero_le n, (List.append_nil ids).symm, rfl⟩

theorem InRow.trans {m n : Nat} {s t u : Scope} {as bs cs : List Nat} (hst : InRow m s as t bs)
    (htu : InRow n t bs u cs) : InRow (m + n) s as u cs := by
  obtain ⟨j, hj, hbs, ht⟩ := hst
  obtain ⟨k, hk, hcs, hu⟩ := htu
  refine ⟨j + k, Nat.add_le_add hj hk, ?_, ?_⟩
  · rw [hcs, hbs, ht, List.iterate_add, List.append_assoc]
  · rw [hu, ht, Nat.add_comm, Function.iterate_add_apply]

theorem inRow_fresh (s : Scope) (ids : List Nat) :
    InRow 1 s ids s.fresh.2 (ids ++ [s.fresh.1]) :=
  ⟨1, Nat.le_refl 1, rfl, rfl⟩

theorem inRow_foldl {σ : Type} (scopeOf : σ → Scope) (idsOf : σ → List Nat) (step : σ → Text → σ)
    (h : ∀ d line, InRow 1 (scopeOf d) (idsOf d) (scopeOf (step d line)) (idsOf (step d line)))
    (lines : List Text) (d : σ) :
    InRow lines.length (scopeOf d) (idsOf d) (scopeOf (lines.foldl step d))
      (idsOf (lines.foldl step d)) := by
  induction lines generalizing d with
  | nil => exact InRow.refl _ _ _
  | cons line lines ih =>
    rw [List.length_cons, Nat.add_comm]
    exact (h d line).trans (ih (step d line))

end Scope

open Scope

namespace Slices

theorem inRow_addLine (state : Pie × Scope) (line : Text) :
    InRow 1 state.2 (Entity.ids state.1.slices) (addLine state line).2
      (Entity.ids (addLine state line).1.slices) := by
  obtain ⟨pie, scope⟩ := state
  unfold addLine
  dsimp only
  split
  · exact InRow.refl _ _ _
  · exact InRow.refl _ _ _
  · simp only [Entity.ids_append]
    exact inRow_fresh scope _
  · exact InRow.refl 1 scope _

theorem inRow_read (lines : List Text) (scope : Scope) :
    InRow lines.length scope [] (read lines scope).2 (Entity.ids (read lines scope).1.slices) :=
  inRow_foldl Prod.snd (fun state : Pie × Scope => Entity.ids state.1.slices) addLine
    inRow_addLine lines ({}, scope)

end Slices

namespace Tasks

theorem inRow_readLine (d : Draft) (line : Text) :
    InRow 1 d.scope (Entity.ids d.chart.tasks) (d.readLine line).scope
      (Entity.ids (d.readLine line).chart.tasks) := by
  unfold Draft.readLine
  split
  · exact InRow.refl _ _ _
  · split <;> exact InRow.refl _ _ _
  · exact InRow.refl _ _ _
  · simp only [Entity.ids_append]
    exact inRow_fresh d.scope _
  · exact InRow.refl 1 d.scope _

theorem inRow_read (lines : List Text) (scope : Scope) :
    InRow lines.length scope [] (read lines scope).2 (Entity.ids (read lines scope).1.tasks) :=
  inRow_foldl Draft.scope (fun d => Entity.ids d.chart.tasks) Draft.readLine inRow_readLine
    lines { scope }

end Tasks

namespace Steps

theorem inRow_readLine (d : Draft) (line : Text) :
    InRow 1 d.scope (Entity.ids d.chart.steps) (d.readLine line).scope
      (Entity.ids (d.readLine line).chart.steps) := by
  unfold Draft.readLine
  split
  · exact InRow.refl _ _ _
  · exact InRow.refl _ _ _
  · simp only [Entity.ids_append]
    exact inRow_fresh d.scope _
  · exact InRow.refl 1 d.scope _

theorem inRow_read (lines : List Text) (scope : Scope) :
    InRow lines.length scope [] (read lines scope).2 (Entity.ids (read lines scope).1.steps) :=
  inRow_foldl Draft.scope (fun d => Entity.ids d.chart.steps) Draft.readLine inRow_readLine
    lines { scope }

end Steps

end Dialect

namespace Diagram

open Dialect Scope

theorem inRow_readChart (d : Diagram) {kind : Kind} (header : Text) (rest : List Text)
    (scope : Scope) (hk : kind ≠ .flowchart ∧ kind ≠ .sequence) :
    InRow (rest.length + 1) scope [] (d.readChart (.headed kind) header rest scope).2
      ((d.readChart (.headed kind) header rest scope).1.idsOf kind) := by
  have hmore : ∀ {t : Scope} {ids : List Nat}, InRow rest.length scope [] t ids →
      InRow (rest.length + 1) scope [] t ids := fun h => h.trans (InRow.refl 1 _ _)
  cases kind with
  | flowchart => exact absurd rfl hk.1
  | sequence => exact absurd rfl hk.2
  | pie => exact Slices.inRow_read (header :: rest) scope
  | gantt => exact hmore (Tasks.inRow_read rest scope)
  | journey => exact hmore (Steps.inRow_read rest scope)

end Diagram
end DiagramDoc
