import DiagramDoc.Proofs.Dialect.FreshRow

/-!
# How far a text counts

Reading a line hands out three fresh identifiers at most, and a name of a letter and digits moves
the counter just past its number. So the counter ends not far behind the larger of where it was and
the largest number that a name asks for.
-/

namespace DiagramDoc

namespace Dialect

/-! ### Names that ask for identifiers -/

/-- The identifiers that the nodes and the edge ends of a line ask for. -/
def Flow.literals (line : Text) : List Nat :=
  let names :=
    match Flow.readLine? line with
    | some (.edge source _ _ target) => [source, target]
    | some (.node name _ _) => [name]
    | _ => []
  names.filterMap (Scope.literal? 'N')

/-- The identifiers that the participants of a line ask for. -/
def Seq.literals (line : Text) : List Nat :=
  let handles :=
    match Seq.readLine? line with
    | some (.message sender receiver _ _) => [sender, receiver]
    | some (.participant handle _) => [handle]
    | none => []
  handles.filterMap (Scope.literal? 'P')

/-- The identifiers that a text asks for. -/
def literals (text : Text) : List Nat :=
  match contentLines text with
  | [] => []
  | header :: rest =>
    match Grammar.ofHeader header with
    | .bare => (header :: rest).flatMap Flow.literals
    | .headed .flowchart => rest.flatMap Flow.literals
    | .headed .sequence => rest.flatMap Seq.literals
    | .headed _ => []

/-! ### Counting line by line -/

namespace Scope

/-- From `s` to `t` the counter moved by at most `n`, from where it was or from the bound `b`. -/
def Within (b n : Nat) (s t : Scope) : Prop := t.next ≤ max s.next b + n

variable {b m n : Nat} {s t u : Scope}

theorem Within.refl (b n : Nat) (s : Scope) : Within b n s s :=
  Nat.le_trans (Nat.le_max_left _ _) (Nat.le_add_right _ _)

theorem Within.trans (hst : Within b m s t) (htu : Within b n t u) : Within b (m + n) s u := by
  unfold Within at *
  omega

theorem Within.mono (h : Within b m s t) (hn : m ≤ n) : Within b n s t :=
  Nat.le_trans h (Nat.add_le_add_left hn _)

theorem within_fresh (b : Nat) (s : Scope) : Within b 1 s s.fresh.2 := by
  have hs : s.fresh.2.next ≤ s.next + 1 := EntityId.successor_le s.next
  unfold Within
  omega

theorem within_allot {letter : Char} {name : Text}
    (h : ∀ id, literal? letter name = some id → id < b) : Within b 1 s (s.allot letter name).2 := by
  unfold allot
  split
  · exact within_fresh b s
  · next id hid =>
    split
    · exact within_fresh b _
    · have hb := h id hid
      have hs := EntityId.successor_le id
      unfold Within
      dsimp only
      split <;> omega

theorem within_foldl {σ : Type} (scopeOf : σ → Scope) {step : σ → Text → σ} {lines : List Text}
    (h : ∀ line ∈ lines, ∀ d, Within b 3 (scopeOf d) (scopeOf (step d line))) (d : σ) :
    Within b (3 * lines.length) (scopeOf d) (scopeOf (lines.foldl step d)) := by
  induction lines generalizing d with
  | nil => exact Within.refl b _ _
  | cons line lines ih =>
    obtain ⟨hline, hrest⟩ := List.forall_mem_cons.mp h
    refine Within.mono ((hline d).trans (ih hrest (step d line))) ?_
    rw [List.length_cons]
    omega

theorem InRow.within {before after : List Nat} (h : InRow n s before t after) (b : Nat) :
    Within b n s t := by
  obtain ⟨k, hk, -, ht⟩ := h
  have hlast := EntityId.iterate_successor_le k s.next
  unfold Within
  omega

end Scope

open Scope

/-! ### Flowcharts and sequence diagrams -/

section Names

variable {b : Nat}

theorem Flow.within_mention (d : Flow.Draft) (name : Text)
    (h : ∀ id, literal? 'N' name = some id → id < b) :
    Within b 1 d.scope (d.mention name).2.scope := by
  unfold Flow.Draft.mention Flow.Draft.resolve
  cases lookup? d.names name with
  | some id => exact Within.refl b 1 _
  | none => exact within_allot h

theorem Flow.within_declare (d : Flow.Draft) (name : Text)
    (h : ∀ id, literal? 'N' name = some id → id < b) (label : Text) (shape : Shape) :
    Within b 1 d.scope (d.declare name label shape).scope := by
  unfold Flow.Draft.declare Flow.Draft.resolve
  cases lookup? d.names name with
  | some id =>
    simp only [Bool.false_eq_true, if_false]
    split <;> exact Within.refl b 1 _
  | none => exact within_allot h

theorem Flow.within_readLine {line : Text} (h : ∀ id ∈ Flow.literals line, id < b)
    (d : Flow.Draft) : Within b 3 d.scope (d.readLine line).scope := by
  unfold Flow.literals at h
  unfold Flow.Draft.readLine
  split
  · exact Within.refl b 3 _
  · next source arrow label target hline =>
    rw [hline] at h
    have hsource := Flow.within_mention d source fun id hid => h id (by simp [hid])
    have htarget := Flow.within_mention (d.mention source).2 target fun id hid =>
      h id (by simp [hid])
    exact (hsource.trans htarget).trans (within_fresh b _)
  · next name label shape hline =>
    rw [hline] at h
    have hname := Flow.within_declare d name (fun id hid => h id (by simp [hid]))
      (Text.unescape label) shape
    exact hname.mono (by decide)
  · exact Within.refl b 3 _

/-- Styles hand out nothing. -/
theorem Flow.next_styles (names : List (Text × Nat)) (styles : List (Text × Text))
    (state : List Node × Scope) :
    (styles.foldl (Flow.styleNode names) state).2.next = state.2.next := by
  induction styles generalizing state with
  | nil => rfl
  | cons style styles ih =>
    rw [List.foldl_cons, ih]
    unfold Flow.styleNode
    split
    · rfl
    · split <;> rfl

theorem Flow.within_read (lines : List Text) (h : ∀ line ∈ lines, ∀ id ∈ Flow.literals line, id < b)
    (scope : Scope) (previous : Flowchart) :
    Within b (3 * lines.length) scope (Flow.read lines scope previous).2 := by
  have hlines := within_foldl Flow.Draft.scope
    (fun line hl d => Flow.within_readLine (h line hl) d) { scope }
  unfold Within at hlines ⊢
  unfold Flow.read
  dsimp only
  rw [Flow.next_styles]
  exact hlines

theorem Seq.within_mention (d : Seq.Draft) (handle : Text)
    (h : ∀ id, literal? 'P' handle = some id → id < b) :
    Within b 1 d.scope (d.mention handle).2.scope := by
  unfold Seq.Draft.mention Seq.Draft.resolve
  cases lookup? d.names handle with
  | some id => exact Within.refl b 1 _
  | none => exact within_allot h

theorem Seq.within_declare (d : Seq.Draft) (handle : Text)
    (h : ∀ id, literal? 'P' handle = some id → id < b) (name : Text) :
    Within b 1 d.scope (d.declare handle name).scope := by
  unfold Seq.Draft.declare Seq.Draft.resolve
  cases lookup? d.names handle with
  | some id =>
    simp only [Bool.false_eq_true, if_false]
    split <;> exact Within.refl b 1 _
  | none => exact within_allot h

theorem Seq.within_readLine {line : Text} (h : ∀ id ∈ Seq.literals line, id < b) (d : Seq.Draft) :
    Within b 3 d.scope (d.readLine line).scope := by
  unfold Seq.literals at h
  unfold Seq.Draft.readLine
  split
  · next handle name hline =>
    rw [hline] at h
    have hhandle := Seq.within_declare d handle (fun id hid => h id (by simp [hid])) name
    exact hhandle.mono (by decide)
  · next sender receiver kind label hline =>
    rw [hline] at h
    have hsender := Seq.within_mention d sender fun id hid => h id (by simp [hid])
    have hreceiver := Seq.within_mention (d.mention sender).2 receiver fun id hid =>
      h id (by simp [hid])
    exact (hsender.trans hreceiver).trans (within_fresh b _)
  · exact Within.refl b 3 _

theorem Seq.within_read (lines : List Text) (h : ∀ line ∈ lines, ∀ id ∈ Seq.literals line, id < b)
    (scope : Scope) : Within b (3 * lines.length) scope (Seq.read lines scope).2 :=
  within_foldl Seq.Draft.scope (fun line hl d => Seq.within_readLine (h line hl) d) { scope }

end Names

end Dialect

namespace Diagram

open Dialect Scope

theorem within_readChart {b : Nat} {text header : Text} {rest : List Text}
    (hl : contentLines text = header :: rest) (h : ∀ id ∈ literals text, id < b) (d : Diagram)
    (scope : Scope) :
    Within b (3 * (rest.length + 1)) scope
      (d.readChart (Grammar.ofHeader header) header rest scope).2 := by
  unfold literals at h
  rw [hl] at h
  dsimp only at h
  cases hg : Grammar.ofHeader header with
  | bare =>
    rw [hg] at h
    exact Flow.within_read (header :: rest)
      (fun line hline id hid => h id (List.mem_flatMap.mpr ⟨line, hline, hid⟩)) scope d.flowchart
  | headed kind =>
    rw [hg] at h
    have hrow : kind ≠ .flowchart ∧ kind ≠ .sequence → Within b (3 * (rest.length + 1)) scope
        (d.readChart (.headed kind) header rest scope).2 := fun hk =>
      ((inRow_readChart d header rest scope hk).within b).mono (by omega)
    cases kind with
    | flowchart =>
      refine (Flow.within_read rest ?_ scope d.flowchart).mono (by omega)
      exact fun line hline id hid => h id (List.mem_flatMap.mpr ⟨line, hline, hid⟩)
    | sequence =>
      refine (Seq.within_read rest ?_ scope).mono (by omega)
      exact fun line hline id hid => h id (List.mem_flatMap.mpr ⟨line, hline, hid⟩)
    | pie => exact hrow (by decide)
    | gantt => exact hrow (by decide)
    | journey => exact hrow (by decide)

/-- The counter of a diagram that was read is bounded by the counter before, the identifiers that
the text asks for, and the length of the text. -/
theorem counter_readText_le {b : Nat} {text : Text} {previous d : Diagram}
    (h : readText text previous = .ok d) (hv : previous.Valid) (hc : 1 ≤ previous.counter)
    (hliterals : ∀ id ∈ literals text, id < b)
    (hsmall : 2 * max previous.counter b + 3 * (text.length + 1) < 2 * EntityId.largest) :
    2 * d.counter ≤ 2 * max previous.counter b + 3 * (text.length + 1) := by
  obtain ⟨header, rest, hl, hf⟩ := readFrom_chartRead h
  have hlines := two_mul_length_contentLines_le text
  have hwithin := within_readChart hl hliterals previous.reconcile
    (scopeFor previous (Grammar.ofHeader header).kind)
  have hstart : (scopeFor previous (Grammar.ofHeader header).kind).next = previous.counter := by
    have hsame : previous.reconcile.nextId = previous.nextId := by
      rw [hv.reconcile_eq_self hc]
    exact hsame.trans (hv.nextId_eq hc)
  have hnext : (chartRead previous header rest).2.next ≤
      max previous.counter b + 3 * (rest.length + 1) := by
    rw [← hstart]
    exact hwithin
  rw [hl, List.length_cons] at hlines
  have hcounter := hf.counter_eq_next (by omega)
  omega

end Diagram
end DiagramDoc
