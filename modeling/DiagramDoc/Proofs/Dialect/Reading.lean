import DiagramDoc.Dialect.Basic
import DiagramDoc.Proofs.Diagram.Reconcile
import DiagramDoc.Proofs.Dialect.Scope

/-!
# What reading a text does to a diagram

Every grammar accounts for the identifiers that its scope hands out: one line does, so all lines do.
From this follows what reading does to the diagram as a whole, whatever the diagram was before.
-/

namespace DiagramDoc.Dialect

open Scope

theorem accounts_allot (s : Scope) (letter : Char) (name : Text) (as bs : List Nat) :
    Accounts s (as ++ bs) (s.allot letter name).2 (as ++ [(s.allot letter name).1] ++ bs) := by
  refine ⟨_, grants_allot s letter name, ?_⟩
  rw [List.append_assoc]
  exact List.perm_middle

theorem accounts_fresh (s : Scope) (ids : List Nat) :
    Accounts s ids s.fresh.2 (ids ++ [s.fresh.1]) :=
  ⟨[s.fresh.1], grants_fresh s, List.perm_append_comm⟩

/-! ### Flowcharts -/

namespace Flow

def Draft.entityIds (d : Draft) : List Nat := Entity.ids d.nodes ++ Entity.ids d.edges

theorem accounts_mention (d : Draft) (name : Text) :
    Accounts d.scope d.entityIds (d.mention name).2.scope (d.mention name).2.entityIds := by
  unfold Draft.mention Draft.resolve
  cases lookup? d.names name with
  | some id => exact Accounts.refl _ _
  | none =>
    simp only [Draft.entityIds, if_true, Entity.ids_append, Entity.ids_cons, Entity.ids_nil]
    exact accounts_allot d.scope 'N' name _ _

theorem accounts_declare (d : Draft) (name label : Text) (shape : Shape) :
    Accounts d.scope d.entityIds (d.declare name label shape).scope
      (d.declare name label shape).entityIds := by
  unfold Draft.declare Draft.resolve
  cases lookup? d.names name with
  | some id =>
    simp only [Bool.false_eq_true, if_false]
    split
    · next nodes hn =>
      have hi : Entity.ids nodes = Entity.ids d.nodes :=
        Entity.ids_updateLast? (by intro node; rfl) hn
      refine ⟨[], Grants.refl _, ?_⟩
      simp only [Draft.entityIds, hi, List.nil_append]
      exact List.Perm.refl _
    · exact Accounts.refl _ _
  | none =>
    simp only [Draft.entityIds, if_true, Entity.ids_append, Entity.ids_cons, Entity.ids_nil]
    exact accounts_allot d.scope 'N' name _ _

theorem accounts_addEdge (d : Draft) (source : Text) (arrow : Arrow) (label : Option Text)
    (target : Text) :
    Accounts d.scope d.entityIds (d.addEdge source arrow label target).scope
      (d.addEdge source arrow label target).entityIds := by
  have hs := accounts_mention d source
  have ht := accounts_mention (d.mention source).2 target
  refine (hs.trans ht).trans ?_
  simp only [Draft.addEdge, Draft.entityIds, Entity.ids_append, Entity.ids_cons, Entity.ids_nil]
  rw [← List.append_assoc]
  exact accounts_fresh _ _

theorem accounts_readLine (d : Draft) (line : Text) :
    Accounts d.scope d.entityIds (d.readLine line).scope (d.readLine line).entityIds := by
  unfold Draft.readLine
  split
  · exact Accounts.refl _ _
  · exact accounts_addEdge d _ _ _ _
  · exact accounts_declare d _ _ _
  · exact accounts_skip d.scope .flowchart line _

theorem settle_id (previous : Flowchart) (index : Nat) (node : Node) :
    (settle previous index node).id = node.id := by
  unfold settle
  split <;> rfl

theorem ids_settleFrom (previous : Flowchart) (index : Nat) (nodes : List Node) :
    Entity.ids (settleFrom previous index nodes) = Entity.ids nodes := by
  induction nodes generalizing index with
  | nil => rfl
  | cons node nodes ih =>
    simp only [settleFrom, Entity.ids_cons, ih]
    exact congrArg (· :: _) (settle_id previous index node)

/-- A node without what a style may change. -/
def uncolored (n : Node) : Node := { n with fill := [], stroke := [], textColor := [] }

theorem ids_uncolored (nodes : List Node) :
    Entity.ids (nodes.map uncolored) = Entity.ids nodes := by
  unfold Entity.ids
  rw [List.map_map]
  rfl

theorem uncolored_applyDeclaration (declaration : Text) (node : Node) :
    uncolored (applyDeclaration node declaration) = uncolored node := by
  unfold applyDeclaration
  split
  · split
    · rfl
    · split
      · rfl
      · split
        · rfl
        · split <;> rfl
  · rfl

theorem uncolored_applyStyle (declarations : Text) (node : Node) :
    uncolored (applyStyle declarations node) = uncolored node := by
  unfold applyStyle
  induction Text.splitOn ',' declarations generalizing node with
  | nil => rfl
  | cons declaration rest ih => rw [List.foldl_cons, ih, uncolored_applyDeclaration]

theorem uncolored_styleNode (names : List (Text × Nat)) (state : List Node × Scope)
    (style : Text × Text) :
    (styleNode names state style).1.map uncolored = state.1.map uncolored := by
  unfold styleNode
  split
  · rfl
  · split
    · next nodes hn => exact Entity.map_update? (uncolored_applyStyle _) hn
    · rfl

theorem grants_styleNode (names : List (Text × Nat)) (state : List Node × Scope)
    (style : Text × Text) : Grants state.2 [] (styleNode names state style).2 := by
  unfold styleNode
  split
  · exact grants_note _ _ _
  · split <;> exact Grants.refl _

/-- Styles change colours, and hand out nothing. -/
theorem styles_spec (names : List (Text × Nat)) (styles : List (Text × Text))
    (state : List Node × Scope) :
    (styles.foldl (styleNode names) state).1.map uncolored = state.1.map uncolored ∧
      Grants state.2 [] (styles.foldl (styleNode names) state).2 := by
  induction styles generalizing state with
  | nil => exact ⟨rfl, Grants.refl _⟩
  | cons style styles ih =>
    obtain ⟨hu, hg⟩ := ih (styleNode names state style)
    exact ⟨hu.trans (uncolored_styleNode names state style),
      (grants_styleNode names state style).trans hg⟩

section Read

variable (lines : List Text) (scope : Scope) (previous : Flowchart)

theorem uncolored_read :
    (read lines scope previous).1.nodes.map uncolored =
      (settleFrom previous 0 (lines.foldl Draft.readLine { scope }).nodes).map uncolored :=
  (styles_spec _ _ _).1

theorem grants_styles_read :
    Grants (lines.foldl Draft.readLine { scope }).scope [] (read lines scope previous).2 :=
  (styles_spec _ _ (settleFrom previous 0 (lines.foldl Draft.readLine { scope }).nodes,
    (lines.foldl Draft.readLine { scope }).scope)).2

theorem ids_read : Entity.ids (read lines scope previous).1.nodes =
    Entity.ids (lines.foldl Draft.readLine { scope }).nodes := by
  have hids := congrArg Entity.ids (uncolored_read lines scope previous)
  rwa [ids_uncolored, ids_uncolored, ids_settleFrom] at hids

theorem accounts_read :
    Accounts scope [] (read lines scope previous).2
      (Entity.ids (read lines scope previous).1.nodes ++
        Entity.ids (read lines scope previous).1.edges) := by
  obtain ⟨ids, hg, hp⟩ := accounts_foldl Draft.scope Draft.entityIds Draft.readLine
    accounts_readLine lines { scope }
  refine ⟨ids, hg.trans (grants_styles_read lines scope previous), ?_⟩
  rw [ids_read]
  exact hp

end Read

end Flow

/-! ### Sequence diagrams -/

namespace Seq

def Draft.entityIds (d : Draft) : List Nat :=
  Entity.ids d.participants ++ Entity.ids d.messages

theorem accounts_mention (d : Draft) (handle : Text) :
    Accounts d.scope d.entityIds (d.mention handle).2.scope (d.mention handle).2.entityIds := by
  unfold Draft.mention Draft.resolve
  cases lookup? d.names handle with
  | some id => exact Accounts.refl _ _
  | none =>
    simp only [Draft.entityIds, if_true, Entity.ids_append, Entity.ids_cons, Entity.ids_nil]
    exact accounts_allot d.scope 'P' handle _ _

theorem accounts_declare (d : Draft) (handle name : Text) :
    Accounts d.scope d.entityIds (d.declare handle name).scope
      (d.declare handle name).entityIds := by
  unfold Draft.declare Draft.resolve
  cases lookup? d.names handle with
  | some id =>
    simp only [Bool.false_eq_true, if_false]
    split
    · next participants hp =>
      have hi : Entity.ids participants = Entity.ids d.participants :=
        Entity.ids_update? (by intro participant; rfl) hp
      refine ⟨[], Grants.refl _, ?_⟩
      simp only [Draft.entityIds, hi, List.nil_append]
      exact List.Perm.refl _
    · exact Accounts.refl _ _
  | none =>
    simp only [Draft.entityIds, if_true, Entity.ids_append, Entity.ids_cons, Entity.ids_nil]
    exact accounts_allot d.scope 'P' handle _ _

theorem accounts_addMessage (d : Draft) (sender receiver : Text) (line : DiagramDoc.Line)
    (label : Text) :
    Accounts d.scope d.entityIds (d.addMessage sender receiver line label).scope
      (d.addMessage sender receiver line label).entityIds := by
  have hs := accounts_mention d sender
  have hr := accounts_mention (d.mention sender).2 receiver
  refine (hs.trans hr).trans ?_
  simp only [Draft.addMessage, Draft.entityIds, Entity.ids_append, Entity.ids_cons,
    Entity.ids_nil]
  rw [← List.append_assoc]
  exact accounts_fresh _ _

theorem accounts_readLine (d : Draft) (line : Text) :
    Accounts d.scope d.entityIds (d.readLine line).scope (d.readLine line).entityIds := by
  unfold Draft.readLine
  split
  · exact accounts_declare d _ _
  · exact accounts_addMessage d _ _ _ _
  · exact accounts_skip d.scope .sequence line _

theorem accounts_read (lines : List Text) (scope : Scope) :
    Accounts scope [] (read lines scope).2
      (Entity.ids (read lines scope).1.participants ++
        Entity.ids (read lines scope).1.messages) :=
  accounts_foldl Draft.scope Draft.entityIds Draft.readLine accounts_readLine lines { scope }

end Seq

/-! ### Pies, gantt charts and journeys -/

namespace Slices

theorem accounts_addLine (state : Pie × Scope) (line : Text) :
    Accounts state.2 (Entity.ids state.1.slices) (addLine state line).2
      (Entity.ids (addLine state line).1.slices) := by
  obtain ⟨pie, scope⟩ := state
  unfold addLine
  dsimp only
  split
  · exact Accounts.refl _ _
  · exact Accounts.refl _ _
  · simp only [Entity.ids_append]
    exact accounts_fresh scope _
  · exact accounts_skip scope .pie line _

theorem accounts_read (lines : List Text) (scope : Scope) :
    Accounts scope [] (read lines scope).2 (Entity.ids (read lines scope).1.slices) :=
  accounts_foldl Prod.snd (fun state : Pie × Scope => Entity.ids state.1.slices) addLine
    accounts_addLine lines ({}, scope)

end Slices

namespace Tasks

theorem accounts_readLine (d : Draft) (line : Text) :
    Accounts d.scope (Entity.ids d.chart.tasks) (d.readLine line).scope
      (Entity.ids (d.readLine line).chart.tasks) := by
  unfold Draft.readLine
  split
  · exact Accounts.refl _ _
  · split <;> exact Accounts.refl _ _
  · exact Accounts.refl _ _
  · simp only [Entity.ids_append]
    exact accounts_fresh d.scope _
  · exact accounts_skip d.scope .gantt line _

theorem accounts_read (lines : List Text) (scope : Scope) :
    Accounts scope [] (read lines scope).2 (Entity.ids (read lines scope).1.tasks) :=
  accounts_foldl Draft.scope (fun d => Entity.ids d.chart.tasks) Draft.readLine accounts_readLine
    lines { scope }

end Tasks

namespace Steps

theorem accounts_readLine (d : Draft) (line : Text) :
    Accounts d.scope (Entity.ids d.chart.steps) (d.readLine line).scope
      (Entity.ids (d.readLine line).chart.steps) := by
  unfold Draft.readLine
  split
  · exact Accounts.refl _ _
  · exact Accounts.refl _ _
  · simp only [Entity.ids_append]
    exact accounts_fresh d.scope _
  · exact accounts_skip d.scope .journey line _

theorem accounts_read (lines : List Text) (scope : Scope) :
    Accounts scope [] (read lines scope).2 (Entity.ids (read lines scope).1.steps) :=
  accounts_foldl Draft.scope (fun d => Entity.ids d.chart.steps) Draft.readLine accounts_readLine
    lines { scope }

end Steps

end DiagramDoc.Dialect
