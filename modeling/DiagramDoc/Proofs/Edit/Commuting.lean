import DiagramDoc.Proofs.Edit.Changes
import DiagramDoc.Proofs.Edit.Charts
import DiagramDoc.Proofs.Edit.Identifiers

/-!
# Edits of different charts commute

An edit that adds nothing reads and writes the chart that it is of, or the kind shown, and makes its
entries in the record of changes. So two such edits of different parts may change places, and a
batch may be shuffled as long as the edits of each part stay in order.
-/

namespace DiagramDoc

namespace Diagram

/-- What an edit can be of: a chart of some kind, or which kind is shown. -/
abbrev Part : Option Kind → Type
  | none => Kind
  | some .flowchart => Flowchart
  | some .sequence => Sequence
  | some .pie => Pie
  | some .gantt => Gantt
  | some .journey => Journey

def part (d : Diagram) : (p : Option Kind) → Part p
  | none => d.kind
  | some .flowchart => d.flowchart
  | some .sequence => d.sequence
  | some .pie => d.pie
  | some .gantt => d.gantt
  | some .journey => d.journey

def withPart (d : Diagram) : (p : Option Kind) → Part p → Diagram
  | none, kind => { d with kind }
  | some .flowchart, flowchart => { d with flowchart }
  | some .sequence, sequence => { d with sequence }
  | some .pie, pie => { d with pie }
  | some .gantt, gantt => { d with gantt }
  | some .journey, journey => { d with journey }

variable {p q : Option Kind}

@[simp] theorem withPart_part (d : Diagram) : d.withPart p (d.part p) = d := by
  rcases p with _ | _ | _ <;> rfl

@[simp] theorem part_withPart (d : Diagram) (x : Part p) : (d.withPart p x).part p = x := by
  rcases p with _ | _ | _ <;> rfl

@[simp] theorem withPart_withPart (d : Diagram) (x y : Part p) :
    (d.withPart p x).withPart p y = d.withPart p y := by
  rcases p with _ | _ | _ <;> rfl

theorem part_withPart_of_ne (h : p ≠ q) (d : Diagram) (x : Part p) :
    (d.withPart p x).part q = d.part q := by
  rcases p with _ | _ | _ <;> rcases q with _ | _ | _ <;> first | rfl | exact absurd rfl h

theorem withPart_comm (h : p ≠ q) (d : Diagram) (x : Part p) (y : Part q) :
    (d.withPart p x).withPart q y = (d.withPart q y).withPart p x := by
  rcases p with _ | _ | _ <;> rcases q with _ | _ | _ <;> first | rfl | exact absurd rfl h

end Diagram

namespace Edited

open Diagram Changes

/-- A change reads and writes one part, and what it records does not depend on the rest either. -/
def ActsOn (p : Option Kind) (f : Edited → Except EditError Edited) : Prop :=
  ∃ act : Part p → Except EditError (Part p × List Event), ∀ e,
    f e = (act (e.diagram.part p)).map fun result =>
      { diagram := e.diagram.withPart p result.1
        changes := result.2.foldl Changes.record e.changes }

section ActsOn

variable {p q : Option Kind} {f g : Edited → Except EditError Edited} {e e' : Edited}

theorem actsOn_ok : ActsOn p .ok := by
  refine ⟨fun x => .ok (x, []), fun e => ?_⟩
  show _ = Except.ok (Edited.mk (e.diagram.withPart p (e.diagram.part p)) e.changes)
  rw [withPart_part]

theorem actsOn_error (error : EditError) : ActsOn p fun _ => .error error :=
  ⟨fun _ => .error error, fun _ => rfl⟩

theorem ActsOn.bind (hf : ActsOn p f) (hg : ActsOn p g) : ActsOn p fun e => f e >>= g := by
  obtain ⟨act, hact⟩ := hf
  obtain ⟨act', hact'⟩ := hg
  refine ⟨fun x => do
    let result ← act x
    let result' ← act' result.1
    .ok (result'.1, result.2 ++ result'.2), fun e => ?_⟩
  dsimp only
  rw [hact]
  cases act (e.diagram.part p) with
  | error _ => rfl
  | ok result =>
    show g _ = Except.map _ (act' result.1 >>= _)
    rw [hact']
    dsimp only
    rw [part_withPart]
    cases act' result.1 with
    | error _ => rfl
    | ok result' =>
      show Except.ok (Edited.mk _ _) = Except.ok (Edited.mk _ _)
      rw [withPart_withPart, List.foldl_append]

/-- What is done may depend on what the part is. -/
theorem actsOn_inspect
    (h : ∀ x : Part p, ∃ g, ActsOn p g ∧ ∀ e : Edited, e.diagram.part p = x → f e = g e) :
    ActsOn p f := by
  choose g hg hfg using h
  choose act hact using hg
  exact ⟨fun x => act x x, fun e => (hfg _ e rfl).trans (hact _ e)⟩

/-- What `get` reads and `set` replaces is inside a part. -/
def Inside {α : Type} (p : Option Kind) (get : Diagram → α) (set : Diagram → α → Diagram) : Prop :=
  ∃ (read : Part p → α) (write : Part p → α → Part p),
    ∀ d, get d = read (d.part p) ∧ ∀ x, set d x = d.withPart p (write (d.part p) x)

section Inside

variable {α β : Type} {get : Diagram → α} {set : Diagram → α → Diagram} (h : Inside p get set)
  (find : α → Option β) (sort : EntitySort) (id : Nat)

include h

theorem actsOn_set (f : α → α) :
    ActsOn p fun e => .ok { e with diagram := set e.diagram (f (get e.diagram)) } := by
  obtain ⟨read, write, h⟩ := h
  refine ⟨fun x => .ok (write x (f (read x)), []), fun e => ?_⟩
  obtain ⟨hread, hwrite⟩ := h e.diagram
  simp only [hread, hwrite]
  rfl

theorem actsOn_update (put : β → α) :
    ActsOn p fun e => e.update sort id ((find (get e.diagram)).map fun x =>
      set e.diagram (put x)) := by
  obtain ⟨read, write, h⟩ := h
  refine ⟨fun x => match find (read x) with
    | some found => .ok (write x (put found), [.updated id])
    | none => .error (.notFound sort id), fun e => ?_⟩
  obtain ⟨hread, hwrite⟩ := h e.diagram
  simp only [hread, hwrite]
  cases find (read (e.diagram.part p)) <;> rfl

theorem actsOn_remove (put : β → α) (lost : β → List Nat) :
    ActsOn p fun e => e.remove sort id ((find (get e.diagram)).map fun x =>
      (set e.diagram (put x), lost x)) := by
  obtain ⟨read, write, h⟩ := h
  refine ⟨fun x => match find (read x) with
    | some found => .ok (write x (put found), (lost found).map .removed ++ [.removed id])
    | none => .error (.notFound sort id), fun e => ?_⟩
  obtain ⟨hread, hwrite⟩ := h e.diagram
  simp only [hread, hwrite]
  cases find (read (e.diagram.part p)) with
  | none => rfl
  | some found =>
    show Except.ok (Edited.mk _ _) = Except.ok (Edited.mk _ _)
    rw [List.foldl_append, List.foldl_map]
    rfl

end Inside

theorem ActsOn.nothingNew (hf : ActsOn p f) (he : NothingNew e.changes) (h : f e = .ok e') :
    NothingNew e'.changes := by
  obtain ⟨act, hact⟩ := hf
  rw [hact] at h
  cases hr : act (e.diagram.part p) with
  | error _ =>
    rw [hr] at h
    cases h
  | ok result =>
    rw [hr] at h
    cases h
    exact he.foldl result.2

/-- Changes of different parts change places. -/
theorem ActsOn.swap (hpq : p ≠ q) (hf : ActsOn p f) (hg : ActsOn q g) (he : NothingNew e.changes)
    (h : (f e >>= g) = .ok e') : (g e >>= f) = .ok e' := by
  obtain ⟨act, hact⟩ := hf
  obtain ⟨act', hact'⟩ := hg
  obtain ⟨m, hm, h⟩ := ok_of_bind h
  rw [hact] at hm
  cases hr : act (e.diagram.part p) with
  | error _ =>
    rw [hr] at hm
    cases hm
  | ok result =>
    rw [hr] at hm
    cases hm
    rw [hact'] at h
    dsimp only at h
    rw [part_withPart_of_ne hpq] at h
    cases hr' : act' (e.diagram.part q) with
    | error _ =>
      rw [hr'] at h
      cases h
    | ok result' =>
      rw [hr'] at h
      cases h
      rw [hact', hr']
      show f _ = _
      rw [hact]
      dsimp only
      rw [part_withPart_of_ne hpq.symm, hr]
      show Except.ok (Edited.mk _ _) = Except.ok (Edited.mk _ _)
      rw [withPart_comm hpq, he.foldl_comm]

end ActsOn

/-! ### The edits of each part -/

theorem actsOn_ite {p : Option Kind} {c : Prop} [Decidable c]
    {f g : Edited → Except EditError Edited}
    (hf : ActsOn p f) (hg : ActsOn p g) : ActsOn p fun e => if c then f e else g e := by
  split
  · exact hf
  · exact hg

theorem actsOn_check {p : Option Kind} {check : Except EditError Unit}
    {f : Edited → Except EditError Edited} (hf : ActsOn p f) :
    ActsOn p fun e => check >>= fun _ => f e := by
  cases check with
  | error error => exact actsOn_error error
  | ok _ => exact hf

theorem inside_flowchart :
    Inside (some .flowchart) flowchart fun d flowchart => { d with flowchart } :=
  ⟨fun chart => chart, fun _ chart => chart, fun _ => ⟨rfl, fun _ => rfl⟩⟩

theorem inside_nodes : Inside (some .flowchart) (fun d => d.flowchart.nodes) withNodes :=
  ⟨Flowchart.nodes, fun (chart : Flowchart) nodes => { chart with nodes },
    fun _ => ⟨rfl, fun _ => rfl⟩⟩

theorem inside_edges : Inside (some .flowchart) (fun d => d.flowchart.edges) withEdges :=
  ⟨Flowchart.edges, fun (chart : Flowchart) edges => { chart with edges },
    fun _ => ⟨rfl, fun _ => rfl⟩⟩

theorem actsOn_removeNode (id : Nat) : ActsOn (some .flowchart) fun e => e.removeNode id :=
  actsOn_remove inside_flowchart (fun chart => chart.removeNode? id) .node id Prod.fst Prod.snd

theorem actsOn_removeNodes (ids : List Nat) :
    ActsOn (some .flowchart) fun e => e.removeNodes ids := by
  induction ids with
  | nil => exact actsOn_ok
  | cons id ids ih => exact (actsOn_removeNode id).bind ih

theorem actsOn_updateEdge (id : Nat) (patch : EdgePatch) :
    ActsOn (some .flowchart) fun e => e.applyFlowchart (.updateEdge id patch) := by
  have hput : ActsOn (some .flowchart) fun e => e.update .edge id
      ((Entity.update? patch.apply id e.diagram.flowchart.edges).map e.diagram.withEdges) :=
    actsOn_update inside_edges (Entity.update? patch.apply id) .edge id fun edges => edges
  refine actsOn_inspect fun (chart : Flowchart) => ?_
  cases hedge : chart.edge? id with
  | none =>
    refine ⟨fun _ => .error (.notFound .edge id), actsOn_error _, fun e he => ?_⟩
    have hchart : e.diagram.flowchart = chart := he
    unfold applyFlowchart
    dsimp only
    rw [hchart, hedge]
  | some edge =>
    refine ⟨fun e => if patch.source.isSome ∨ patch.target.isSome then
        chart.checkEnds (patch.apply edge).source (patch.apply edge).target >>= fun _ =>
          e.update .edge id
            ((Entity.update? patch.apply id e.diagram.flowchart.edges).map e.diagram.withEdges)
      else e.update .edge id
        ((Entity.update? patch.apply id e.diagram.flowchart.edges).map e.diagram.withEdges),
      actsOn_ite (actsOn_check hput) hput, fun e he => ?_⟩
    have hchart : e.diagram.flowchart = chart := he
    unfold applyFlowchart
    dsimp only
    rw [hchart, hedge]

theorem actsOn_applyFlowchart {edit : FlowchartEdit} (h : (Edit.flowchart edit).adds = false) :
    ActsOn (some .flowchart) fun e => e.applyFlowchart edit := by
  cases edit with
  | addNode label shape x y => cases h
  | updateNode id patch =>
    exact actsOn_update inside_nodes (Entity.update? patch.apply id) .node id _
  | moveNode id x y => exact actsOn_update inside_nodes _ .node id fun nodes => nodes
  | removeNodes ids => exact actsOn_removeNodes ids
  | addEdge source target label arrow => cases h
  | updateEdge id patch => exact actsOn_updateEdge id patch
  | removeEdge id =>
    exact actsOn_remove inside_edges (Entity.remove? id) .edge id (fun edges => edges) fun _ => []

theorem inside_sequence : Inside (some .sequence) sequence fun d sequence => { d with sequence } :=
  ⟨fun chart => chart, fun _ chart => chart, fun _ => ⟨rfl, fun _ => rfl⟩⟩

theorem inside_participants :
    Inside (some .sequence) (fun d => d.sequence.participants) withParticipants :=
  ⟨Sequence.participants, fun (chart : Sequence) participants => { chart with participants },
    fun _ => ⟨rfl, fun _ => rfl⟩⟩

theorem inside_messages : Inside (some .sequence) (fun d => d.sequence.messages) withMessages :=
  ⟨Sequence.messages, fun (chart : Sequence) messages => { chart with messages },
    fun _ => ⟨rfl, fun _ => rfl⟩⟩

theorem actsOn_updateMessage (id : Nat) (patch : MessagePatch) :
    ActsOn (some .sequence) fun e => e.applySequence (.updateMessage id patch) := by
  have hput : ActsOn (some .sequence) fun e => e.update .message id
      ((Entity.update? patch.apply id e.diagram.sequence.messages).map e.diagram.withMessages) :=
    actsOn_update inside_messages (Entity.update? patch.apply id) .message id
      fun messages => messages
  refine actsOn_inspect fun (chart : Sequence) => ?_
  cases hmessage : Entity.find? chart.messages id with
  | none =>
    refine ⟨fun _ => .error (.notFound .message id), actsOn_error _, fun e he => ?_⟩
    have hchart : e.diagram.sequence = chart := he
    unfold applySequence
    dsimp only
    rw [hchart, hmessage]
  | some message =>
    refine ⟨fun e => if patch.sender.isSome ∨ patch.receiver.isSome then
        chart.checkEnds (patch.apply message).sender (patch.apply message).receiver >>= fun _ =>
          e.update .message id ((Entity.update? patch.apply id
            e.diagram.sequence.messages).map e.diagram.withMessages)
      else e.update .message id ((Entity.update? patch.apply id
        e.diagram.sequence.messages).map e.diagram.withMessages),
      actsOn_ite (actsOn_check hput) hput, fun e he => ?_⟩
    have hchart : e.diagram.sequence = chart := he
    unfold applySequence
    dsimp only
    rw [hchart, hmessage]

theorem actsOn_applySequence {edit : SequenceEdit} (h : (Edit.sequence edit).adds = false) :
    ActsOn (some .sequence) fun e => e.applySequence edit := by
  cases edit with
  | addParticipant name => cases h
  | renameParticipant id name => exact actsOn_update inside_participants _ .participant id _
  | removeParticipant id =>
    exact actsOn_remove inside_sequence (fun chart => chart.removeParticipant? id) .participant id
      Prod.fst Prod.snd
  | addMessage sender receiver label line => cases h
  | updateMessage id patch => exact actsOn_updateMessage id patch
  | removeMessage id =>
    exact actsOn_remove inside_messages (Entity.remove? id) .message id (fun messages => messages)
      fun _ => []

theorem inside_pie : Inside (some .pie) pie fun d pie => { d with pie } :=
  ⟨fun chart => chart, fun _ chart => chart, fun _ => ⟨rfl, fun _ => rfl⟩⟩

theorem inside_slices : Inside (some .pie) (fun d => d.pie.slices) withSlices :=
  ⟨Pie.slices, fun (chart : Pie) slices => { chart with slices }, fun _ => ⟨rfl, fun _ => rfl⟩⟩

theorem actsOn_applyPie {edit : PieEdit} (h : (Edit.pie edit).adds = false) :
    ActsOn (some .pie) fun e => e.applyPie edit := by
  cases edit with
  | setTitle title => exact actsOn_set inside_pie fun chart => { chart with title }
  | addSlice label value => cases h
  | updateSlice id patch => exact actsOn_update inside_slices _ .slice id _
  | removeSlice id =>
    exact actsOn_remove inside_slices (Entity.remove? id) .slice id (fun slices => slices)
      fun _ => []

theorem inside_gantt : Inside (some .gantt) gantt fun d gantt => { d with gantt } :=
  ⟨fun chart => chart, fun _ chart => chart, fun _ => ⟨rfl, fun _ => rfl⟩⟩

theorem inside_tasks : Inside (some .gantt) (fun d => d.gantt.tasks) withTasks :=
  ⟨Gantt.tasks, fun (chart : Gantt) tasks => { chart with tasks }, fun _ => ⟨rfl, fun _ => rfl⟩⟩

theorem actsOn_applyGantt {edit : GanttEdit} (h : (Edit.gantt edit).adds = false) :
    ActsOn (some .gantt) fun e => e.applyGantt edit := by
  cases edit with
  | setTitle title => exact actsOn_set inside_gantt fun chart => { chart with title }
  | setDateFormat dateFormat => exact actsOn_set inside_gantt fun chart => { chart with dateFormat }
  | addTask group label => cases h
  | updateTask id patch => exact actsOn_update inside_tasks _ .task id _
  | removeTask id =>
    exact actsOn_remove inside_tasks (Entity.remove? id) .task id (fun tasks => tasks) fun _ => []

theorem inside_journey : Inside (some .journey) journey fun d journey => { d with journey } :=
  ⟨fun chart => chart, fun _ chart => chart, fun _ => ⟨rfl, fun _ => rfl⟩⟩

theorem inside_steps : Inside (some .journey) (fun d => d.journey.steps) withSteps :=
  ⟨Journey.steps, fun (chart : Journey) steps => { chart with steps }, fun _ => ⟨rfl, fun _ => rfl⟩⟩

theorem actsOn_applyJourney {edit : JourneyEdit} (h : (Edit.journey edit).adds = false) :
    ActsOn (some .journey) fun e => e.applyJourney edit := by
  cases edit with
  | setTitle title => exact actsOn_set inside_journey fun chart => { chart with title }
  | addStep group task => cases h
  | updateStep id patch => exact actsOn_update inside_steps _ .step id _
  | removeStep id =>
    exact actsOn_remove inside_steps (Entity.remove? id) .step id (fun steps => steps) fun _ => []

theorem inside_kind : Inside none kind fun d kind => { d with kind } :=
  ⟨fun kind => kind, fun _ kind => kind, fun _ => ⟨rfl, fun _ => rfl⟩⟩

theorem actsOn_apply {edit : Edit} (h : edit.adds = false) :
    ActsOn edit.chart? fun e => e.apply edit := by
  cases edit with
  | flowchart edit => exact actsOn_applyFlowchart h
  | sequence edit => exact actsOn_applySequence h
  | pie edit => exact actsOn_applyPie h
  | gantt edit => exact actsOn_applyGantt h
  | journey edit => exact actsOn_applyJourney h
  | setKind kind => exact actsOn_set inside_kind fun _ => kind

/-! ### Batches -/

variable {a b : Edit} {as bs : List Edit} {e e' : Edited}

theorem applyAll_cons_eq_ok :
    e.applyAll (a :: as) = .ok e' ↔ ∃ f, e.apply a = .ok f ∧ f.applyAll as = .ok e' :=
  ⟨ok_of_bind, fun ⟨f, hf, hr⟩ => by rw [applyAll, hf]; exact hr⟩

theorem applyAll_two_eq_ok :
    e.applyAll (a :: b :: as) = .ok e' ↔
      ∃ f, (e.apply a >>= fun g => g.apply b) = .ok f ∧ f.applyAll as = .ok e' := by
  have hassoc : e.applyAll (a :: b :: as) =
      (e.apply a >>= fun g => g.apply b) >>= fun f => f.applyAll as := (bind_assoc _ _ _).symm
  rw [hassoc]
  exact ⟨ok_of_bind, fun ⟨f, hf, hr⟩ => by rw [hf]; exact hr⟩

theorem nothingNew_apply (ha : a.adds = false) (he : NothingNew e.changes)
    (h : e.apply a = .ok e') :
    NothingNew e'.changes := (actsOn_apply ha).nothingNew he h

/-- Two edits of different parts change places. -/
theorem applyAll_swap (hab : a.chart? ≠ b.chart?) (ha : a.adds = false) (hb : b.adds = false)
    (he : NothingNew e.changes) (h : e.applyAll (a :: b :: as) = .ok e') :
    e.applyAll (b :: a :: as) = .ok e' := by
  obtain ⟨f, hf, hr⟩ := applyAll_two_eq_ok.mp h
  exact applyAll_two_eq_ok.mpr ⟨f, (actsOn_apply ha).swap hab (actsOn_apply hb) he hf, hr⟩

/-- An edit may be made before others that are not of its part. -/
theorem applyAll_advance (ha : a.adds = false)
    (has : ∀ x ∈ as, x.adds = false ∧ x.chart? ≠ a.chart?) (he : NothingNew e.changes) :
    e.applyAll (as ++ a :: bs) = .ok e' ↔ e.applyAll (a :: (as ++ bs)) = .ok e' := by
  induction as generalizing e with
  | nil => exact Iff.rfl
  | cons x as ih =>
    obtain ⟨⟨hx, hne⟩, has⟩ := List.forall_mem_cons.mp has
    calc e.applyAll (x :: (as ++ a :: bs)) = .ok e' ↔
          ∃ f, e.apply x = .ok f ∧ f.applyAll (as ++ a :: bs) = .ok e' := applyAll_cons_eq_ok
      _ ↔ ∃ f, e.apply x = .ok f ∧ f.applyAll (a :: (as ++ bs)) = .ok e' :=
          exists_congr fun f => and_congr_right fun hf => ih has (nothingNew_apply hx he hf)
      _ ↔ e.applyAll (x :: a :: (as ++ bs)) = .ok e' := applyAll_cons_eq_ok.symm
      _ ↔ e.applyAll (a :: x :: (as ++ bs)) = .ok e' :=
          ⟨applyAll_swap hne hx ha he, applyAll_swap hne.symm ha hx he⟩

/-- Two batches hold the same edits of each part, in the same order. -/
def SameByPart (as bs : List Edit) : Prop :=
  ∀ p, as.filter (fun x => x.chart? = p) = bs.filter fun x => x.chart? = p

theorem SameByPart.symm (h : SameByPart as bs) : SameByPart bs as := fun p => (h p).symm

theorem SameByPart.mem (h : SameByPart as bs) (hb : b ∈ bs) : b ∈ as := by
  have hf : b ∈ bs.filter fun x => x.chart? = b.chart? := List.mem_filter.mpr ⟨hb, by simp⟩
  rw [← h] at hf
  exact (List.mem_filter.mp hf).1

/-- The first edit of one batch is the first one of its part in the other. -/
theorem SameByPart.exists_split (h : SameByPart (a :: as) bs) :
    ∃ xs ys, bs = xs ++ a :: ys ∧ (∀ x ∈ xs, x.chart? ≠ a.chart?) ∧ SameByPart as (xs ++ ys) := by
  have ha := h a.chart?
  rw [List.filter_cons_of_pos (by simp)] at ha
  obtain ⟨xs, ys, rfl, hxs, -, -⟩ := List.filter_eq_cons_iff.mp ha.symm
  refine ⟨xs, ys, rfl, fun x hx => by simpa using hxs x hx, fun p => ?_⟩
  have hp := h p
  by_cases hap : a.chart? = p
  · have hnone : xs.filter (fun x => x.chart? = p) = [] :=
      List.filter_eq_nil_iff.mpr fun x hx => hap ▸ hxs x hx
    rw [List.filter_append, hnone, List.filter_cons_of_pos (by simpa using hap),
      List.filter_cons_of_pos (by simpa using hap)] at hp
    rw [List.filter_append, hnone]
    exact List.tail_eq_of_cons_eq hp
  · rw [List.filter_append, List.filter_cons_of_neg (by simpa using hap),
      List.filter_cons_of_neg (by simpa using hap), ← List.filter_append] at hp
    exact hp

theorem SameByPart.length_eq (h : SameByPart as bs) : as.length = bs.length := by
  induction as generalizing bs with
  | nil =>
    have hnil : bs = [] :=
      List.eq_nil_iff_forall_not_mem.mpr fun b hb => List.not_mem_nil (h.mem hb)
    rw [hnil]
  | cons a as ih =>
    obtain ⟨xs, ys, rfl, -, hrest⟩ := h.exists_split
    have hlength := ih hrest
    simp only [List.length_append, List.length_cons] at hlength ⊢
    omega

/-- Batches with the same edits of each part, in the same order, have the same outcome. -/
theorem applyAll_sameByPart (h : SameByPart as bs) (has : ∀ x ∈ as, x.adds = false)
    (he : NothingNew e.changes) : e.applyAll as = .ok e' ↔ e.applyAll bs = .ok e' := by
  induction as generalizing e bs with
  | nil =>
    have hnil : bs = [] :=
      List.eq_nil_iff_forall_not_mem.mpr fun b hb => List.not_mem_nil (h.mem hb)
    rw [hnil]
  | cons a as ih =>
    obtain ⟨xs, ys, rfl, hxs, hrest⟩ := h.exists_split
    obtain ⟨ha, has⟩ := List.forall_mem_cons.mp has
    have hbefore : ∀ x ∈ xs, x.adds = false ∧ x.chart? ≠ a.chart? := fun x hx =>
      ⟨has x (hrest.mem (List.mem_append_left ys hx)), hxs x hx⟩
    calc e.applyAll (a :: as) = .ok e' ↔ ∃ f, e.apply a = .ok f ∧ f.applyAll as = .ok e' :=
          applyAll_cons_eq_ok
      _ ↔ ∃ f, e.apply a = .ok f ∧ f.applyAll (xs ++ ys) = .ok e' :=
          exists_congr fun f => and_congr_right fun hf => ih hrest has (nothingNew_apply ha he hf)
      _ ↔ e.applyAll (a :: (xs ++ ys)) = .ok e' := applyAll_cons_eq_ok.symm
      _ ↔ e.applyAll (xs ++ a :: ys) = .ok e' := (applyAll_advance ha hbefore he).symm

end Edited

namespace Diagram

open Edited

theorem applyEdits_of_sameByPart {d : Diagram} {as bs : List Edit} {outcome : BatchOutcome}
    (hparts : SameByPart as bs) (has : ∀ edit ∈ as, edit.adds = false)
    (h : d.applyEdits as = .ok outcome) : d.applyEdits bs = .ok outcome := by
  obtain ⟨e, he, rfl⟩ := applyEdits_eq_ok h
  have hbs := (applyAll_sameByPart hparts has Changes.nothingNew).mp he
  unfold applyEdits
  rw [hbs, hparts.length_eq]
  rfl

/-- Of two batches that add nothing and hold the same edits of each chart, and of the kind shown, in
the same order, one is accepted just if the other is, and then with the same outcome. -/
theorem applyEdits_sameByPart {d : Diagram} {as bs : List Edit}
    (hadds : ∀ edit ∈ as ++ bs, edit.adds = false) (hparts : SameByPart as bs)
    (outcome : BatchOutcome) : d.applyEdits as = .ok outcome ↔ d.applyEdits bs = .ok outcome := by
  obtain ⟨has, hbs⟩ := List.forall_mem_append.mp hadds
  exact ⟨applyEdits_of_sameByPart hparts has, applyEdits_of_sameByPart hparts.symm hbs⟩

/-- A node and a slice share an identifier, and so do an edge and a slice. -/
def entwined : Diagram where
  flowchart :=
    { nodes := [{ id := 1, label := "A".toList }, { id := 2, label := "B".toList }]
      edges := [{ id := 3, source := 2, target := 1 }] }
  pie := { slices := [⟨1, "a".toList, 1, []⟩, ⟨3, "b".toList, 2, []⟩, ⟨4, "c".toList, 3, []⟩] }

def chartByChart : List Edit :=
  [.flowchart (.updateEdge 3 { source := some 1, target := some 2 }), .flowchart (.removeNodes [2]),
   .pie (.updateSlice 3 { value := some 5 }), .pie (.removeSlice 1), .pie (.updateSlice 4 {}),
   .setKind .pie, .setKind .gantt]

def mixed : List Edit :=
  [.setKind .pie, .pie (.updateSlice 3 { value := some 5 }),
   .flowchart (.updateEdge 3 { source := some 1, target := some 2 }), .pie (.removeSlice 1),
   .setKind .gantt, .flowchart (.removeNodes [2]), .pie (.updateSlice 4 {})]

def entwinedOutcome : BatchOutcome where
  diagram :=
    { kind := .gantt
      flowchart := { nodes := [{ id := 1, label := "A".toList }] }
      pie := { slices := [⟨3, "b".toList, 5, []⟩, ⟨4, "c".toList, 3, []⟩] } }
  changes := { removed := [1, 2, 3], updated := [4] }
  applied := 7

theorem applyEdits_sameByPart_entwined :
    (∀ edit ∈ chartByChart ++ mixed, edit.adds = false) ∧ SameByPart chartByChart mixed ∧
      entwined.applyEdits chartByChart = .ok entwinedOutcome ∧
      entwined.applyEdits mixed = .ok entwinedOutcome := by
  have hadds : ∀ edit ∈ chartByChart ++ mixed, edit.adds = false := by decide
  have hparts : SameByPart chartByChart mixed := by
    rintro (_ | kind)
    · rfl
    · cases kind <;> rfl
  have h : entwined.applyEdits chartByChart = .ok entwinedOutcome := by rfl
  exact ⟨hadds, hparts, h, (applyEdits_sameByPart hadds hparts _).mp h⟩

end Diagram
end DiagramDoc
