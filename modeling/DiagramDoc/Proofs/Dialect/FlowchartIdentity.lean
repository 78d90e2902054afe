import DiagramDoc.Proofs.Dialect.FlowchartMeaning
import DiagramDoc.Proofs.Dialect.ReadText

/-!
# Nodes that keep their identifiers

A name such as `N7` asks for the identifier 7. It gets this identifier in every text in which no other
name asks for it before, if it was handed out in the past and no other chart has it: what is drawn in
between is never older than the counter. With its identifier a node keeps its place and size.
-/

namespace DiagramDoc

namespace Dialect

/-! ### Names of numbers -/

/-- The name is a letter and digits that make a number. -/
def Denotes (letter : Char) (name : Text) (k : Nat) : Prop :=
  ∃ digits, name = letter :: digits ∧ digits ≠ [] ∧ digits.all Char.isDigit = true ∧
    Digits.toNat digits = k

theorem literal?_eq_some_iff {letter : Char} {name : Text} {k : Nat} :
    Scope.literal? letter name = some k ↔ Denotes letter name k ∧ EntityId.InRange k := by
  constructor
  · intro h
    refine ⟨?_, Scope.literal?_inRange h⟩
    unfold Scope.literal? at h
    split at h
    · cases h
    · split at h
      · next hdigits =>
        cases h
        obtain ⟨rfl, hne, hall, -⟩ := hdigits
        exact ⟨_, rfl, hne, hall, rfl⟩
      · cases h
  · rintro ⟨⟨digits, rfl, hne, hall, rfl⟩, hk⟩
    exact if_pos ⟨rfl, hne, hall, hk⟩

theorem find?_eq_of_first {α : Type} {p : α → Bool} {x : α} {before after : List α}
    (hx : p x = true) (h : ∀ y ∈ before, p y = true → y = x) :
    (before ++ x :: after).find? p = some x := by
  rw [List.find?_append]
  cases hfind : before.find? p with
  | none => rw [Option.none_or, List.find?_cons_of_pos hx]
  | some y =>
    rw [Option.some_or, h y (List.mem_of_find?_eq_some hfind) (List.find?_some hfind)]

/-- The first name that asks for a free identifier gets it, whatever is drawn before. -/
theorem Roll.Calls.idOf_eq_of_first {letter : Char} {scope : Scope} {before after : List Text}
    {name : Text} {k : Nat} {s : Roll}
    (h : Calls letter ⟨scope, [], []⟩ (before ++ name :: after) s) (hc : scope.claimed = [])
    (hr : k ∉ scope.reserved) (hb : k < scope.next) (hk : EntityId.InRange k)
    (hname : Denotes letter name k)
    (hfirst : ∀ other ∈ before, other ≠ name → ¬ Denotes letter other k) : s.idOf name = k := by
  have hlarge : k < EntityId.largest := by
    have hmax : EntityId.largestRead < EntityId.largest := by decide
    have hle := hk.2
    omega
  have hkeeps := h.keeps ⟨rfl, rfl⟩ hlarge {
    below := hb
    free := hr
    unclaimed := by
      intro _ hm
      rw [hc] at hm
      cases hm
    granted := by
      intro other ho
      cases ho }
  refine Roll.idOf_eq (hkeeps.granted name (find?_eq_of_first ?_ ?_))
  · exact decide_eq_true (literal?_eq_some_iff.mpr ⟨hname, hk⟩)
  · intro other hother hasks
    by_contra hne
    exact hfirst other hother hne (literal?_eq_some_iff.mp (of_decide_eq_true hasks)).1

namespace Flow

/-! ### Places -/

/-- A node stands where another stood, in its size. -/
structure Stays (old n : Node) : Prop where
  x : n.x = old.x
  y : n.y = old.y
  width : n.width = old.width
  height : n.height = old.height

theorem stays_settle {previous : Flowchart} {n old : Node} (h : previous.node? n.id = some old)
    (index : Nat) : Stays old (settle previous index n) := by
  unfold settle
  rw [h]
  exact ⟨rfl, rfl, rfl, rfl⟩

theorem Stays.of_uncolored {old m n : Node} (hm : Stays old m) (h : uncolored m = uncolored n) :
    Stays old n := by
  have hx := congrArg Node.x h
  have hy := congrArg Node.y h
  have hwidth := congrArg Node.width h
  have hheight := congrArg Node.height h
  exact ⟨hx.symm.trans hm.x, hy.symm.trans hm.y, hwidth.symm.trans hm.width,
    hheight.symm.trans hm.height⟩

/-- Every node that is read stands where the node of its identifier stood before. -/
theorem stays_read {lines : List Text} {scope : Scope} {previous : Flowchart} {n old : Node}
    (hn : n ∈ (read lines scope previous).1.nodes) (h : previous.node? n.id = some old) :
    Stays old n := by
  have hmem : uncolored n ∈
      (settleFrom previous 0 (lines.foldl Draft.readLine { scope }).nodes).map uncolored := by
    rw [← uncolored_read]
    exact List.mem_map_of_mem hn
  obtain ⟨m, hm, hsame⟩ := List.mem_map.mp hmem
  rw [settleFrom_eq_mapIdx, List.mem_mapIdx] at hm
  obtain ⟨index, hindex, rfl⟩ := hm
  have hid := congrArg Node.id hsame
  have hold : previous.node? ((lines.foldl Draft.readLine { scope }).nodes[index]).id = some old := by
    rw [← settle_id previous (0 + index)]
    exact (congrArg previous.node? hid).trans h
  exact (stays_settle hold (0 + index)).of_uncolored hsame

/-! ### Identifiers of names -/

/-- Names have these identifiers in a chart: its nodes stand in the order of the names, and its edges
join the nodes of theirs. -/
structure Numbered (said : List Line) (idOf : Text → Nat) (f : Flowchart) : Prop where
  nodes : Entity.ids f.nodes = (namesIn said).map idOf
  edges : List.Forall₂ (DrawnBy idOf) (said.filter Line.isEdge) f.edges

theorem numbered_read (lines : List Text) (scope : Scope) (previous : Flowchart) :
    Numbered (lines.filterMap readLine?) (lines.foldl Draft.readLine { scope }).roll.idOf
      (read lines scope previous).1 := by
  have hnodes := (follows_readLines scope lines).enrolled.ids_eq
  exact ⟨(ids_read lines scope previous).trans hnodes, edges_read lines scope previous⟩

theorem Numbered.exists_node {said : List Line} {idOf : Text → Nat} {f : Flowchart}
    (h : Numbered said idOf f) {name : Text} (hname : name ∈ namesIn said) :
    ∃ n, f.nodes[(namesIn said).idxOf name]? = some n ∧ n.id = idOf name := by
  have hindex : (namesIn said).idxOf name < (namesIn said).length := List.idxOf_lt_length_of_mem hname
  have hid : (Entity.ids f.nodes)[(namesIn said).idxOf name]? = some (idOf name) := by
    rw [h.nodes, List.getElem?_map, List.getElem?_eq_getElem hindex, List.getElem_idxOf]
    rfl
  unfold Entity.ids at hid
  rw [List.getElem?_map] at hid
  exact Option.map_eq_some_iff.mp hid

/-- The lines of a text that is read as a flowchart. -/
def linesOf? (text : Text) : Option (List Text) :=
  match contentLines text with
  | [] => none
  | header :: rest =>
    match Grammar.ofHeader header with
    | .bare => some (header :: rest)
    | .headed .flowchart => some rest
    | .headed _ => none

end Flow
end Dialect

namespace Diagram

open Dialect

theorem exists_readText_linesOf? {text : Text} {lines : List Text}
    (h : Flow.linesOf? text = some lines) (previous : Diagram) :
    ∃ e, readText text previous = .ok e ∧ e.kind = .flowchart ∧
      e.flowchart =
        (Flow.read lines (scopeFor previous .flowchart) previous.reconcile.flowchart).1 := by
  unfold Flow.linesOf? at h
  split at h
  · cases h
  · next header rest hcontent =>
    obtain ⟨counter, hread⟩ := readText_cons hcontent previous
    unfold chartRead at hread
    split at h
    · next hgrammar =>
      cases h
      rw [hgrammar] at hread
      exact ⟨_, hread, rfl, rfl⟩
    · next hgrammar =>
      cases h
      rw [hgrammar] at hread
      exact ⟨_, hread, rfl, rfl⟩
    · cases h

theorem Valid.counter_le_scopeFor {d : Diagram} (hv : d.Valid) (kind : Kind) :
    d.counter ≤ (scopeFor d kind).next := by
  have hreconcile : d.reconcile.counter = d.nextId := by
    rw [hv.reconcile_eq]
    rfl
  have hnext := counter_le_nextId d.reconcile
  rw [hreconcile] at hnext
  exact Nat.le_trans (counter_le_nextId d) hnext

/-- The identifiers that a text cannot ask for are those of the other charts. -/
theorem Valid.not_mem_reserved_scopeFor {d : Diagram} (hv : d.Valid) {kind : Kind} {id : Nat} :
    id ∉ (scopeFor d kind).reserved ↔ ∀ other, other ≠ kind → id ∉ d.idsOf other := by
  have hsame : (scopeFor d kind).reserved = d.idsExcept kind :=
    (hv.agreesExcept_reconcile kind).idsExcept_eq
  have hall : ∀ other : Kind, other ∈ Kind.all := by
    intro other
    cases other <;> decide
  rw [hsame]
  simp only [idsExcept, List.mem_flatMap, List.mem_filter, hall, true_and, decide_eq_true_iff,
    not_exists, not_and]

theorem Valid.node?_id {d : Diagram} (hv : d.Valid) {n : Node} (h : n ∈ d.flowchart.nodes) :
    d.flowchart.node? n.id = some n := by
  have hd : (Entity.ids d.flowchart.nodes).Nodup :=
    hv.distinct.sublist ((List.sublist_append_left _ _).trans (List.sublist_append_left _ _))
  exact Entity.find?_id hd h

/-- The first name that asks for an identifier of the past which is in no other chart has a node of
this identifier, whatever else the text says. If there was a node of this identifier before, the new
one stands in its place. -/
theorem Valid.exists_node_readText {previous : Diagram} (hv : previous.Valid) {text : Text}
    {lines before after : List Text} {name : Text} {k : Nat}
    (hl : Flow.linesOf? text = some lines)
    (hsplit : (lines.filterMap Flow.readLine?).flatMap Flow.Line.names = before ++ name :: after)
    (hname : Denotes 'N' name k) (hk : EntityId.InRange k) (hpast : k < previous.counter)
    (hothers : ∀ kind, kind ≠ .flowchart → k ∉ previous.idsOf kind)
    (hfirst : ∀ other ∈ before, other ≠ name → ¬ Denotes 'N' other k) :
    ∃ e idOf n, readText text previous = .ok e ∧ e.kind = .flowchart ∧
      Flow.Numbered (lines.filterMap Flow.readLine?) idOf e.flowchart ∧ idOf name = k ∧
      e.flowchart.nodes[(Flow.namesIn (lines.filterMap Flow.readLine?)).idxOf name]? = some n ∧
      n.id = k ∧ ∀ old ∈ previous.flowchart.nodes, old.id = k → Flow.Stays old n := by
  obtain ⟨e, hread, hkind, hchart⟩ := exists_readText_linesOf? hl previous
  have hreserved : k ∉ (scopeFor previous .flowchart).reserved :=
    hv.not_mem_reserved_scopeFor.mpr hothers
  have hnext : k < (scopeFor previous .flowchart).next :=
    Nat.lt_of_lt_of_le hpast (hv.counter_le_scopeFor .flowchart)
  have hcalls := (Flow.follows_readLines (scopeFor previous .flowchart) lines).calls
  rw [hsplit] at hcalls
  have hid := hcalls.idOf_eq_of_first rfl hreserved hnext hk hname hfirst
  have hnumbered := Flow.numbered_read lines (scopeFor previous .flowchart)
    previous.reconcile.flowchart
  rw [← hchart] at hnumbered
  have hmem : name ∈ Flow.namesIn (lines.filterMap Flow.readLine?) := by
    unfold Flow.namesIn
    rw [List.mem_eraseDups, hsplit]
    exact List.mem_append_right _ List.mem_cons_self
  obtain ⟨n, hnode, hn⟩ := hnumbered.exists_node hmem
  refine ⟨e, _, n, hread, hkind, hnumbered, hid, hnode, hn.trans hid, fun old hold hi => ?_⟩
  have hin : n ∈ e.flowchart.nodes := List.mem_of_getElem? hnode
  rw [hchart] at hin
  refine Flow.stays_read hin ?_
  have hsame : previous.reconcile.flowchart = previous.flowchart := by
    rw [hv.reconcile_eq]
    rfl
  rw [hsame, hn, hid, ← hi]
  exact hv.node?_id hold

/-- A chart whose node 3 stands aside, next to a participant. -/
def charted : Diagram where
  counter := 8
  flowchart :=
    { nodes := [{ id := 3, label := "old".toList, x := 5, width := 90 }, { id := 2, label := [] }]
      edges := [{ id := 7, source := 2, target := 3 }] }
  sequence := { participants := [⟨4, []⟩] }

def rechartedLines : List Text :=
  ["N4 --> B".toList, "style N3 fill:red".toList, "C[c]".toList, "B -.-> N3".toList,
   "N03 --- A".toList]

/-- Three names get fresh identifiers before `N3` is met, and `N03` comes too late for its number. -/
def recharted : Text := "graph LR\nN4 --> B\n\n style N3 fill:red\nC[c]\nB -.-> N3\nN03 --- A".toList

theorem exists_node_readText_recharted :
    ∃ e idOf n, readText recharted charted = .ok e ∧ e.kind = .flowchart ∧
      Flow.Numbered (rechartedLines.filterMap Flow.readLine?) idOf e.flowchart ∧
      idOf "N3".toList = 3 ∧ e.flowchart.nodes[3]? = some n ∧ n.id = 3 ∧ n.x = 5 ∧ n.width = 90 := by
  have hvalid : charted.Valid := ⟨by decide, by decide, by decide⟩
  have hlines : Flow.linesOf? recharted = some rechartedLines := by decide
  have hsplit : (rechartedLines.filterMap Flow.readLine?).flatMap Flow.Line.names =
      ["N4".toList, "B".toList, "C".toList, "B".toList] ++ "N3".toList ::
        ["N03".toList, "A".toList] := by decide
  have hname : Denotes 'N' "N3".toList 3 := ⟨['3'], rfl, by decide, by decide, by decide⟩
  have hthree : EntityId.InRange 3 := by decide
  have hothers : ∀ kind, kind ≠ .flowchart → 3 ∉ charted.idsOf kind := by
    intro kind
    cases kind <;> decide
  have hasks : ∀ other ∈ ["N4".toList, "B".toList, "C".toList, "B".toList],
      Scope.literal? 'N' other ≠ some 3 := by decide
  obtain ⟨e, idOf, n, hread, hkind, hnumbered, hid, hnode, hn, hstays⟩ :=
    hvalid.exists_node_readText hlines hsplit hname hthree (by decide) hothers
      fun other hother _ hdenotes =>
        hasks other hother (literal?_eq_some_iff.mpr ⟨hdenotes, hthree⟩)
  have hplace : (Flow.namesIn (rechartedLines.filterMap Flow.readLine?)).idxOf "N3".toList = 3 := by
    decide
  have hold := hstays _ List.mem_cons_self rfl
  rw [hplace] at hnode
  exact ⟨e, idOf, n, hread, hkind, hnumbered, hid, hnode, hn, hold.x, hold.width⟩

end Diagram
end DiagramDoc
