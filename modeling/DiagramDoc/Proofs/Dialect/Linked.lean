import DiagramDoc.Proofs.Dialect.Name
import DiagramDoc.Proofs.Dialect.ReadText

/-!
# Ends of edges and messages

While a text is read, every name that was met belongs to a node or a participant. So what a text
joins are entities of the chart that it describes, and never anything else.
-/

namespace DiagramDoc

namespace Dialect

theorem mem_ids_concat {α : Type} [Entity α] (xs : List α) (x : α) :
    Entity.id x ∈ Entity.ids (xs ++ [x]) := by
  rw [Entity.ids_append]
  exact List.mem_append_right _ List.mem_cons_self

theorem mem_ids_append {α : Type} [Entity α] {xs : List α} {id : Nat} (h : id ∈ Entity.ids xs)
    (ys : List α) : id ∈ Entity.ids (xs ++ ys) := by
  rw [Entity.ids_append]
  exact List.mem_append_left _ h

/-! ### Flowcharts -/

namespace Flow

structure Draft.Linked (d : Draft) : Prop where
  names : ∀ entry ∈ d.names, entry.2 ∈ Entity.ids d.nodes
  edges : ∀ e ∈ d.edges, e.source ∈ Entity.ids d.nodes ∧ e.target ∈ Entity.ids d.nodes

variable {d : Draft}

/-- A draft stays linked when it gains nodes, and names of these. -/
theorem Draft.Linked.grow {e : Draft} (hd : d.Linked)
    (hids : ∀ id ∈ Entity.ids d.nodes, id ∈ Entity.ids e.nodes)
    (hnames : ∀ entry ∈ e.names, entry ∈ d.names ∨ entry.2 ∈ Entity.ids e.nodes)
    (hedges : e.edges = d.edges) : e.Linked where
  names entry h := (hnames entry h).elim (fun hm => hids _ (hd.names entry hm)) fun hm => hm
  edges edge h := by
    obtain ⟨hs, ht⟩ := hd.edges edge (hedges ▸ h)
    exact ⟨hids _ hs, hids _ ht⟩

theorem Draft.Linked.add (hd : d.Linked) (scope : Scope) (name : Text) (n : Node) :
    ({ d with scope, names := (name, n.id) :: d.names, nodes := d.nodes ++ [n] } : Draft).Linked := by
  refine hd.grow (fun id h => mem_ids_append h _) (fun entry h => ?_) rfl
  rcases List.mem_cons.mp h with rfl | h
  · exact .inr (mem_ids_concat _ n)
  · exact .inl h

theorem linked_mention (hd : d.Linked) (name : Text) :
    (d.mention name).2.Linked ∧ (d.mention name).1 ∈ Entity.ids (d.mention name).2.nodes ∧
      ∀ id ∈ Entity.ids d.nodes, id ∈ Entity.ids (d.mention name).2.nodes := by
  unfold Draft.mention Draft.resolve
  cases hl : lookup? d.names name with
  | some id =>
    exact ⟨hd, hd.names _ (mem_of_lookup?_eq_some hl), fun _ h => h⟩
  | none =>
    exact ⟨hd.add _ name { id := (d.scope.allot 'N' name).1, label := name },
      mem_ids_concat d.nodes _, fun id h => mem_ids_append h _⟩

theorem linked_declare (hd : d.Linked) (name label : Text) (shape : Shape) :
    (d.declare name label shape).Linked := by
  unfold Draft.declare Draft.resolve
  cases lookup? d.names name with
  | some id =>
    simp only [Bool.false_eq_true, if_false]
    split
    · next nodes hn =>
      have hi : Entity.ids nodes = Entity.ids d.nodes :=
        Entity.ids_updateLast? (by intro node; rfl) hn
      exact hd.grow (fun id h => hi.symm ▸ h) (fun entry h => .inl h) rfl
    · exact hd
  | none => exact hd.add _ name { id := (d.scope.allot 'N' name).1, label, shape }

/-- One line keeps a draft linked. -/
theorem linked_readLine (hd : d.Linked) (line : Text) : (d.readLine line).Linked := by
  unfold Draft.readLine
  split
  · exact ⟨hd.names, hd.edges⟩
  · next source arrow label target _ =>
    obtain ⟨hs, hsource, -⟩ := linked_mention hd source
    obtain ⟨ht, htarget, hgrow⟩ := linked_mention hs target
    exact ⟨ht.names, List.forall_mem_append.mpr
      ⟨ht.edges, List.forall_mem_singleton.mpr ⟨hgrow _ hsource, htarget⟩⟩⟩
  · exact linked_declare hd _ _ _
  · exact ⟨hd.names, hd.edges⟩

/-- The edges that a text describes join nodes that it describes. -/
theorem linked_read (lines : List Text) (scope : Scope) (previous : Flowchart) :
    ∀ e ∈ (read lines scope previous).1.edges,
      e.source ∈ Entity.ids (read lines scope previous).1.nodes ∧
        e.target ∈ Entity.ids (read lines scope previous).1.nodes := by
  have hall : ∀ d : Draft, d.Linked → (lines.foldl Draft.readLine d).Linked := by
    induction lines with
    | nil => exact fun d hd => hd
    | cons line lines ih => exact fun d hd => ih _ (linked_readLine hd line)
  have hd := hall { scope }
    ⟨fun _ h => absurd h List.not_mem_nil, fun _ h => absurd h List.not_mem_nil⟩
  rw [ids_read]
  exact hd.edges

end Flow

/-! ### Sequence diagrams -/

namespace Seq

structure Draft.Linked (d : Draft) : Prop where
  names : ∀ entry ∈ d.names, entry.2 ∈ Entity.ids d.participants
  messages : ∀ m ∈ d.messages,
    m.sender ∈ Entity.ids d.participants ∧ m.receiver ∈ Entity.ids d.participants

variable {d : Draft}

theorem Draft.Linked.grow {e : Draft} (hd : d.Linked)
    (hids : ∀ id ∈ Entity.ids d.participants, id ∈ Entity.ids e.participants)
    (hnames : ∀ entry ∈ e.names, entry ∈ d.names ∨ entry.2 ∈ Entity.ids e.participants)
    (hmessages : e.messages = d.messages) : e.Linked where
  names entry h := (hnames entry h).elim (fun hm => hids _ (hd.names entry hm)) fun hm => hm
  messages message h := by
    obtain ⟨hs, hr⟩ := hd.messages message (hmessages ▸ h)
    exact ⟨hids _ hs, hids _ hr⟩

theorem Draft.Linked.add (hd : d.Linked) (scope : Scope) (handle : Text) (p : Participant) :
    ({ d with scope, names := (handle, p.id) :: d.names
              participants := d.participants ++ [p] } : Draft).Linked := by
  refine hd.grow (fun id h => mem_ids_append h _) (fun entry h => ?_) rfl
  rcases List.mem_cons.mp h with rfl | h
  · exact .inr (mem_ids_concat _ p)
  · exact .inl h

theorem linked_mention (hd : d.Linked) (handle : Text) :
    (d.mention handle).2.Linked ∧
      (d.mention handle).1 ∈ Entity.ids (d.mention handle).2.participants ∧
      ∀ id ∈ Entity.ids d.participants, id ∈ Entity.ids (d.mention handle).2.participants := by
  unfold Draft.mention Draft.resolve
  cases hl : lookup? d.names handle with
  | some id =>
    exact ⟨hd, hd.names _ (mem_of_lookup?_eq_some hl), fun _ h => h⟩
  | none =>
    exact ⟨hd.add _ handle ⟨(d.scope.allot 'P' handle).1, handle⟩,
      mem_ids_concat d.participants _, fun id h => mem_ids_append h _⟩

theorem linked_declare (hd : d.Linked) (handle name : Text) : (d.declare handle name).Linked := by
  unfold Draft.declare Draft.resolve
  cases lookup? d.names handle with
  | some id =>
    simp only [Bool.false_eq_true, if_false]
    split
    · next participants hp =>
      have hi : Entity.ids participants = Entity.ids d.participants :=
        Entity.ids_update? (by intro participant; rfl) hp
      exact hd.grow (fun id h => hi.symm ▸ h) (fun entry h => .inl h) rfl
    · exact hd
  | none => exact hd.add _ handle ⟨(d.scope.allot 'P' handle).1, name⟩

/-- One line keeps a draft linked. -/
theorem linked_readLine (hd : d.Linked) (line : Text) : (d.readLine line).Linked := by
  unfold Draft.readLine
  split
  · exact linked_declare hd _ _
  · next sender receiver kind label _ =>
    obtain ⟨hs, hsender, -⟩ := linked_mention hd sender
    obtain ⟨hr, hreceiver, hgrow⟩ := linked_mention hs receiver
    exact ⟨hr.names, List.forall_mem_append.mpr
      ⟨hr.messages, List.forall_mem_singleton.mpr ⟨hgrow _ hsender, hreceiver⟩⟩⟩
  · exact ⟨hd.names, hd.messages⟩

/-- The messages that a text describes join participants that it describes. -/
theorem linked_read (lines : List Text) (scope : Scope) :
    ∀ m ∈ (read lines scope).1.messages,
      m.sender ∈ Entity.ids (read lines scope).1.participants ∧
        m.receiver ∈ Entity.ids (read lines scope).1.participants := by
  have hall : ∀ d : Draft, d.Linked → (lines.foldl Draft.readLine d).Linked := by
    induction lines with
    | nil => exact fun d hd => hd
    | cons line lines ih => exact fun d hd => ih _ (linked_readLine hd line)
  exact (hall { scope }
    ⟨fun _ h => absurd h List.not_mem_nil, fun _ h => absurd h List.not_mem_nil⟩).messages

end Seq

end Dialect

namespace Diagram

open Dialect

/-- In a diagram that was read from a text, edges join nodes and messages join participants, as far
as the text describes them. -/
theorem linked_readText {text : Text} {previous d : Diagram}
    (h : readText text previous = .ok d) :
    (d.kind = .flowchart → ∀ e ∈ d.flowchart.edges,
      e.source ∈ Entity.ids d.flowchart.nodes ∧ e.target ∈ Entity.ids d.flowchart.nodes) ∧
    (d.kind = .sequence → ∀ m ∈ d.sequence.messages,
      m.sender ∈ Entity.ids d.sequence.participants ∧
        m.receiver ∈ Entity.ids d.sequence.participants) := by
  obtain ⟨header, rest, -, rfl⟩ := readText_eq_ok h
  unfold chartRead refresh
  cases Grammar.ofHeader header with
  | bare => exact ⟨fun _ => Flow.linked_read _ _ _, fun hk => (nomatch hk)⟩
  | headed kind =>
    cases kind with
    | flowchart => exact ⟨fun _ => Flow.linked_read _ _ _, fun hk => (nomatch hk)⟩
    | sequence => exact ⟨fun hk => (nomatch hk), fun _ => Seq.linked_read _ _⟩
    | pie => exact ⟨fun hk => (nomatch hk), fun hk => (nomatch hk)⟩
    | gantt => exact ⟨fun hk => (nomatch hk), fun hk => (nomatch hk)⟩
    | journey => exact ⟨fun hk => (nomatch hk), fun hk => (nomatch hk)⟩

end Diagram
end DiagramDoc
