import DiagramDoc.Proofs.Edit.Charts
import DiagramDoc.Proofs.Edit.Identifiers

/-!
# Connections under edits

Edges and messages are links between the points of their charts. Edits refuse a link that would join
nothing or lead back to its start, and what drops a point drops its links. So a bad link that is found
after a batch was there before, and was bad before; this needs no distinct identifiers.
-/

namespace DiagramDoc

structure Link where
  id : Nat
  source : Nat
  target : Nat
deriving DecidableEq

/-- A link joins two different points that exist. -/
def Link.Joins (points : List Nat) (l : Link) : Prop :=
  l.source ∈ points ∧ l.target ∈ points ∧ l.source ≠ l.target

instance (points : List Nat) (l : Link) : Decidable (l.Joins points) :=
  inferInstanceAs (Decidable (_ ∧ _ ∧ _))

structure Net where
  points : List Nat
  links : List Link
deriving DecidableEq

def Edge.link (e : Edge) : Link := ⟨e.id, e.source, e.target⟩

def Message.link (m : Message) : Link := ⟨m.id, m.sender, m.receiver⟩

def Flowchart.net (f : Flowchart) : Net := ⟨Entity.ids f.nodes, f.edges.map Edge.link⟩

def Sequence.net (s : Sequence) : Net := ⟨Entity.ids s.participants, s.messages.map Message.link⟩

namespace Net

def Sound (n : Net) : Prop := ∀ l ∈ n.links, l.Joins n.points

instance (n : Net) : Decidable n.Sound := inferInstanceAs (Decidable (∀ l ∈ n.links, _))

/-- Every link of the second net joins two points there, or it is a link of the first net that joined
nothing in it. -/
def NoWorse (n n' : Net) : Prop :=
  ∀ l ∈ n'.links, l.Joins n'.points ∨ l ∈ n.links ∧ ¬ l.Joins n.points

theorem noWorse_of {n n' : Net} (h : ∀ l ∈ n'.links,
    l.Joins n'.points ∨ l ∈ n.links ∧ (l.Joins n.points → l.Joins n'.points)) : n.NoWorse n' := by
  intro l hl
  rcases h l hl with hj | ⟨hm, hkeep⟩
  · exact .inl hj
  · by_cases hj : l.Joins n.points
    · exact .inl (hkeep hj)
    · exact .inr ⟨hm, hj⟩

theorem NoWorse.refl (n : Net) : n.NoWorse n := noWorse_of fun _ hl => .inr ⟨hl, id⟩

theorem NoWorse.trans {n n' n'' : Net} (h : n.NoWorse n') (h' : n'.NoWorse n'') :
    n.NoWorse n'' := by
  intro l hl
  rcases h' l hl with hj | ⟨hm, hn⟩
  · exact .inl hj
  · exact .inr ((h l hm).resolve_left hn)

theorem NoWorse.sound {n n' : Net} (h : n.NoWorse n') (hs : n.Sound) : n'.Sound := fun l hl =>
  (h l hl).resolve_right fun ⟨hm, hn⟩ => hn (hs l hm)

/-! ### One change of a net -/

section Steps

variable {α : Type} {link : α → Link} {points : List Nat}

theorem noWorse_add_link {xs : List α} {x : α} (h : (link x).Joins points) :
    NoWorse ⟨points, xs.map link⟩ ⟨points, (xs ++ [x]).map link⟩ := by
  refine noWorse_of fun l hl => ?_
  obtain ⟨y, hy, rfl⟩ := List.mem_map.mp hl
  rcases List.mem_append.mp hy with hy | hy
  · exact .inr ⟨List.mem_map_of_mem hy, fun hj => hj⟩
  · cases List.mem_singleton.mp hy
    exact .inl h

variable [Entity α] {f : α → α} {id : Nat} {xs xs' : List α}

theorem noWorse_add_point (x : α) (links : List Link) :
    NoWorse ⟨Entity.ids xs, links⟩ ⟨Entity.ids (xs ++ [x]), links⟩ := by
  have hsub : Entity.ids xs ⊆ Entity.ids (xs ++ [x]) := by
    rw [Entity.ids_append]
    exact List.subset_append_left _ _
  exact noWorse_of fun _ hl => .inr ⟨hl, fun ⟨hs, ht, hne⟩ => ⟨hsub hs, hsub ht, hne⟩⟩

theorem noWorse_update_point (hu : Entity.update? f id xs = some xs')
    (hf : ∀ x, Entity.id (f x) = Entity.id x) (links : List Link) :
    NoWorse ⟨Entity.ids xs, links⟩ ⟨Entity.ids xs', links⟩ := by
  rw [Entity.ids_update? hf hu]
  exact NoWorse.refl _

/-- A point goes together with its links, so the links that stay keep their ends. -/
theorem noWorse_remove_point (hr : Entity.remove? id xs = some xs') {links links' : List Link}
    (hsub : links' ⊆ links) (hends : ∀ l ∈ links', l.source ≠ id ∧ l.target ≠ id) :
    NoWorse ⟨Entity.ids xs, links⟩ ⟨Entity.ids xs', links'⟩ := by
  have hkeep : ∀ p ∈ Entity.ids xs, p ≠ id → p ∈ Entity.ids xs' := fun p hp hne =>
    List.mem_of_ne_of_mem hne ((Entity.perm_remove? hr).subset hp)
  refine noWorse_of fun l hl => .inr ⟨hsub hl, fun ⟨hs, ht, hne⟩ => ?_⟩
  exact ⟨hkeep _ hs (hends l hl).1, hkeep _ ht (hends l hl).2, hne⟩

/-- The link that is changed is the one whose ends were looked at. -/
theorem noWorse_update_link {x : α} (hu : Entity.update? f id xs = some xs')
    (hx : Entity.find? xs id = some x)
    (hf : link (f x) = link x ∨ (link (f x)).Joins points) :
    NoWorse ⟨points, xs.map link⟩ ⟨points, xs'.map link⟩ := by
  refine noWorse_of fun l hl => ?_
  obtain ⟨y, hy, rfl⟩ := List.mem_map.mp hl
  rcases Entity.mem_of_mem_update? hu hx hy with hy | rfl
  · exact .inr ⟨List.mem_map_of_mem hy, fun hj => hj⟩
  · rcases hf with heq | hj
    · rw [heq]
      exact .inr ⟨List.mem_map_of_mem (List.mem_of_find?_eq_some hx), fun hj => hj⟩
    · exact .inl hj

theorem noWorse_remove_link (hr : Entity.remove? id xs = some xs') :
    NoWorse ⟨points, xs.map link⟩ ⟨points, xs'.map link⟩ :=
  noWorse_of fun _ hl =>
    .inr ⟨List.map_subset _ (Entity.remove?_sublist hr).subset hl, fun hj => hj⟩

end Steps
end Net

/-! ### Edits of the flowchart -/

theorem Flowchart.joins_of_checkEnds {f : Flowchart} {source target : Nat}
    (h : f.checkEnds source target = .ok ()) (id : Nat) :
    (Link.mk id source target).Joins f.net.points := by
  unfold checkEnds node? at h
  simp only [Option.isNone_iff_eq_none, ← Option.not_isSome_iff_eq_none, Entity.find?_isSome] at h
  split_ifs at h with hs ht he
  exact ⟨hs, ht, he⟩

theorem Sequence.joins_of_checkEnds {s : Sequence} {sender receiver : Nat}
    (h : s.checkEnds sender receiver = .ok ()) (id : Nat) :
    (Link.mk id sender receiver).Joins s.net.points := by
  unfold checkEnds participant? at h
  simp only [Option.isNone_iff_eq_none, ← Option.not_isSome_iff_eq_none, Entity.find?_isSome] at h
  split_ifs at h with hs ht he
  exact ⟨hs, ht, he⟩

namespace Edited

open Net

variable {e e' : Edited}

theorem noWorse_removeNode {id : Nat} (h : e.removeNode id = .ok e') :
    e.diagram.flowchart.net.NoWorse e'.diagram.flowchart.net := by
  obtain ⟨nodes, hn, rfl⟩ := removeNode_eq_ok h
  have hsub : e.diagram.flowchart.edges.filter (fun edge => !edge.touches id) ⊆
      e.diagram.flowchart.edges := List.filter_subset_self _
  refine noWorse_remove_point hn (List.map_subset _ hsub) fun l hl => ?_
  obtain ⟨edge, hedge, rfl⟩ := List.mem_map.mp hl
  simpa [Edge.touches, Edge.link] using (List.mem_filter.mp hedge).2

theorem noWorse_removeNodes {ids : List Nat} (h : e.removeNodes ids = .ok e') :
    e.diagram.flowchart.net.NoWorse e'.diagram.flowchart.net := by
  induction ids generalizing e with
  | nil =>
    cases h
    exact NoWorse.refl _
  | cons id ids ih =>
    obtain ⟨f, hf, hr⟩ := ok_of_bind h
    exact (noWorse_removeNode hf).trans (ih hr)

theorem noWorse_applyFlowchart {edit : FlowchartEdit} (h : e.applyFlowchart edit = .ok e') :
    e.diagram.flowchart.net.NoWorse e'.diagram.flowchart.net := by
  cases edit with
  | addNode label shape x y =>
    cases h
    exact noWorse_add_point _ _
  | updateNode id patch =>
    obtain ⟨nodes, hn, rfl⟩ := update_eq_ok h
    exact noWorse_update_point hn (fun _ => rfl) _
  | moveNode id x y =>
    obtain ⟨nodes, hn, rfl⟩ := update_eq_ok h
    exact noWorse_update_point hn (fun _ => rfl) _
  | removeNodes ids => exact noWorse_removeNodes h
  | addEdge source target label arrow =>
    obtain ⟨_, hc, h⟩ := ok_of_bind h
    cases h
    exact noWorse_add_link (Flowchart.joins_of_checkEnds hc _)
  | updateEdge id patch =>
    obtain ⟨edge, hedge, hends, hu⟩ := applyFlowchart_updateEdge h
    obtain ⟨edges, he, rfl⟩ := update_eq_ok hu
    refine noWorse_update_link he hedge ?_
    rcases hends with ⟨hs, ht⟩ | hc
    · left
      simp [Edge.link, EdgePatch.apply, hs, ht]
    · exact .inr (Flowchart.joins_of_checkEnds hc _)
  | removeEdge id =>
    obtain ⟨edges, he, rfl⟩ := remove_eq_ok h
    exact noWorse_remove_link he

/-! ### Edits of the sequence diagram -/

theorem noWorse_removeParticipant {id : Nat} (h : e.removeParticipant id = .ok e') :
    e.diagram.sequence.net.NoWorse e'.diagram.sequence.net := by
  obtain ⟨participants, hp, rfl⟩ := removeParticipant_eq_ok h
  have hsub : e.diagram.sequence.messages.filter (fun message => !message.touches id) ⊆
      e.diagram.sequence.messages := List.filter_subset_self _
  refine noWorse_remove_point hp (List.map_subset _ hsub) fun l hl => ?_
  obtain ⟨message, hmessage, rfl⟩ := List.mem_map.mp hl
  simpa [Message.touches, Message.link] using (List.mem_filter.mp hmessage).2

theorem noWorse_applySequence {edit : SequenceEdit} (h : e.applySequence edit = .ok e') :
    e.diagram.sequence.net.NoWorse e'.diagram.sequence.net := by
  cases edit with
  | addParticipant name =>
    cases h
    exact noWorse_add_point _ _
  | renameParticipant id name =>
    obtain ⟨participants, hp, rfl⟩ := update_eq_ok h
    exact noWorse_update_point hp (fun _ => rfl) _
  | removeParticipant id => exact noWorse_removeParticipant h
  | addMessage sender receiver label line =>
    obtain ⟨_, hc, h⟩ := ok_of_bind h
    cases h
    exact noWorse_add_link (Sequence.joins_of_checkEnds hc _)
  | updateMessage id patch =>
    obtain ⟨message, hmessage, hends, hu⟩ := applySequence_updateMessage h
    obtain ⟨messages, hm, rfl⟩ := update_eq_ok hu
    refine noWorse_update_link hm hmessage ?_
    rcases hends with ⟨hs, ht⟩ | hc
    · left
      simp [Message.link, MessagePatch.apply, hs, ht]
    · exact .inr (Sequence.joins_of_checkEnds hc _)
  | removeMessage id =>
    obtain ⟨messages, hm, rfl⟩ := remove_eq_ok h
    exact noWorse_remove_link hm

/-! ### Batches -/

theorem noWorse_flowchart {edit : Edit} (h : e.apply edit = .ok e') :
    e.diagram.flowchart.net.NoWorse e'.diagram.flowchart.net := by
  cases edit with
  | flowchart edit => exact noWorse_applyFlowchart h
  | sequence edit | pie edit | gantt edit | journey edit =>
    rw [(agreesExcept_apply h rfl).flowchart (by decide)]
    exact NoWorse.refl _
  | setKind kind =>
    cases h
    exact NoWorse.refl _

theorem noWorse_sequence {edit : Edit} (h : e.apply edit = .ok e') :
    e.diagram.sequence.net.NoWorse e'.diagram.sequence.net := by
  cases edit with
  | sequence edit => exact noWorse_applySequence h
  | flowchart edit | pie edit | gantt edit | journey edit =>
    rw [(agreesExcept_apply h rfl).sequence (by decide)]
    exact NoWorse.refl _
  | setKind kind =>
    cases h
    exact NoWorse.refl _

theorem noWorse_applyAll {edits : List Edit} (h : e.applyAll edits = .ok e') :
    e.diagram.flowchart.net.NoWorse e'.diagram.flowchart.net ∧
      e.diagram.sequence.net.NoWorse e'.diagram.sequence.net := by
  induction edits generalizing e with
  | nil =>
    cases h
    exact ⟨NoWorse.refl _, NoWorse.refl _⟩
  | cons edit edits ih =>
    obtain ⟨f, hf, hr⟩ := ok_of_bind h
    obtain ⟨hflow, hseq⟩ := ih hr
    exact ⟨(noWorse_flowchart hf).trans hflow, (noWorse_sequence hf).trans hseq⟩

end Edited

namespace Diagram

/-- An accepted batch makes no bad connection, whatever the diagram was. -/
theorem applyEdits_noWorse {d : Diagram} {edits : List Edit} {o : BatchOutcome}
    (h : d.applyEdits edits = .ok o) :
    d.flowchart.net.NoWorse o.diagram.flowchart.net ∧
      d.sequence.net.NoWorse o.diagram.sequence.net ∧
      (d.flowchart.net.Sound ∧ d.sequence.net.Sound →
        o.diagram.flowchart.net.Sound ∧ o.diagram.sequence.net.Sound) := by
  obtain ⟨e, he, rfl⟩ := applyEdits_eq_ok h
  obtain ⟨hflow, hseq⟩ := Edited.noWorse_applyAll he
  exact ⟨hflow, hseq, fun ⟨hf, hs⟩ => ⟨hflow.sound hf, hseq.sound hs⟩⟩

/-- An identifier is used three times, two edges and a message dangle, and an edge is a loop. -/
def scrawl : Diagram where
  counter := 6
  flowchart :=
    { nodes :=
        [{ id := 1, label := "A".toList }, { id := 2, label := "B".toList },
         { id := 1, label := "C".toList }]
      edges :=
        [{ id := 4, source := 2, target := 9 }, { id := 5, source := 2, target := 2 },
         { id := 4, source := 2, target := 7 }] }
  sequence :=
    { participants := [⟨1, "User".toList⟩, ⟨3, "System".toList⟩]
      messages := [{ id := 5, sender := 3, receiver := 8 }, { id := 7, sender := 1, receiver := 3 }] }

/-- Drops one owner of an identifier and links to the other, turns the first edge of an identifier to
a node that exists, and leaves the loop and the message that dangles. -/
def scrawlEdits : List Edit :=
  [.flowchart (.removeNodes [1]),
   .flowchart (.addEdge 1 2 [] .forward),
   .flowchart (.updateEdge 4 { target := some 1 }),
   .flowchart (.updateEdge 5 { label := some "loop".toList }),
   .sequence (.updateMessage 7 { sender := some 3, receiver := some 1 }),
   .sequence (.removeParticipant 1)]

def detour : List Edit :=
  [.flowchart (.addNode none .process 0 0), .flowchart (.updateEdge 100 { target := some 112 }),
   .flowchart (.removeNodes [3]), .flowchart (.addEdge 112 2 [] .line)]

theorem applyEdits_noWorse_scrawl :
    (∃ o, scrawl.applyEdits scrawlEdits = .ok o ∧
      o.diagram.flowchart.net = ⟨[2, 1], [⟨4, 2, 1⟩, ⟨5, 2, 2⟩, ⟨4, 2, 7⟩, ⟨8, 1, 2⟩]⟩ ∧
      o.diagram.sequence.net = ⟨[3], [⟨5, 3, 8⟩]⟩ ∧
      scrawl.flowchart.net.NoWorse o.diagram.flowchart.net ∧
      scrawl.sequence.net.NoWorse o.diagram.sequence.net) ∧
    ∃ o, starter.applyEdits detour = .ok o ∧
      o.diagram.flowchart.net = ⟨[2, 112], [⟨100, 2, 112⟩, ⟨113, 112, 2⟩]⟩ ∧
      o.diagram.flowchart.net.Sound ∧ o.diagram.sequence.net.Sound := by
  constructor
  · have h : ∃ o, scrawl.applyEdits scrawlEdits = .ok o ∧
        o.diagram.flowchart.net = ⟨[2, 1], [⟨4, 2, 1⟩, ⟨5, 2, 2⟩, ⟨4, 2, 7⟩, ⟨8, 1, 2⟩]⟩ ∧
        o.diagram.sequence.net = ⟨[3], [⟨5, 3, 8⟩]⟩ := ⟨_, rfl, rfl, rfl⟩
    obtain ⟨o, ho, hflow, hseq⟩ := h
    obtain ⟨hf, hs, -⟩ := applyEdits_noWorse ho
    exact ⟨o, ho, hflow, hseq, hf, hs⟩
  · have h : ∃ o, starter.applyEdits detour = .ok o ∧
        o.diagram.flowchart.net = ⟨[2, 112], [⟨100, 2, 112⟩, ⟨113, 112, 2⟩]⟩ := ⟨_, rfl, rfl⟩
    obtain ⟨o, ho, hflow⟩ := h
    exact ⟨o, ho, hflow, (applyEdits_noWorse ho).2.2 ⟨by decide, by decide⟩⟩

end Diagram
end DiagramDoc
