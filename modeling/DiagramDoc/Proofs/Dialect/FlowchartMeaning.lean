import DiagramDoc.Proofs.Dialect.FlowchartColors
import DiagramDoc.Proofs.Dialect.Roll

/-!
# What the lines of a flowchart mean

Lines are taken together here, not one after the other: which names they hold, what they say last of
the label, the shape and the colours of a name, and which edges they draw. Reading them makes just the
chart that is described so, wherever in the text a line stands.
-/

namespace DiagramDoc.Dialect.Flow

open Text

/-! ### What lines say -/

/-- The names of a line that stand for nodes. A style makes no node. -/
def Line.names : Line → List Text
  | .style _ _ => []
  | .edge source _ _ target => [source, target]
  | .node name _ _ => [name]

/-- The label and the shape that a line gives to a name. -/
def Line.said? (name : Text) : Line → Option (Text × Shape)
  | .node other label shape => if other = name then some (unescape label, shape) else none
  | _ => none

/-- What a line declares about the colours of a name. -/
def Line.declarations (name : Text) : Line → List Text
  | .style other declarations => if other = name then splitOn ',' declarations else []
  | _ => []

def Line.isEdge : Line → Bool
  | .edge _ _ _ _ => true
  | _ => false

/-- The value that a declaration `key:value` gives to a key. -/
def valueOf? (key declaration : Text) : Option Text :=
  match (splitOn ':' declaration).map trim with
  | other :: value :: _ => if other = key ∧ value ≠ [] then some value else none
  | _ => none

/-- The names of all lines, in the order of their first appearance. -/
def namesIn (said : List Line) : List Text := (said.flatMap Line.names).eraseDups

def saidLast? (said : List Line) (name : Text) : Option (Text × Shape) :=
  (said.filterMap (Line.said? name)).getLast?

/-- The last colour that lines give to a name under a key. -/
def colorLast? (said : List Line) (name key : Text) : Option Text :=
  ((said.flatMap (Line.declarations name)).filterMap (valueOf? key)).getLast?

/-- The node of the name that is the `index`-th to appear, if it has the identifier `id`. -/
def nodeMeant (said : List Line) (previous : Flowchart) (index : Nat) (name : Text) (id : Nat) :
    Node where
  id
  label := ((saidLast? said name).map Prod.fst).getD name
  shape := ((saidLast? said name).map Prod.snd).getD .process
  x := ((previous.node? id).map Node.x).getD (.ofNat (180 + index % 4 * 220))
  y := ((previous.node? id).map Node.y).getD (.ofNat (140 + index / 4 * 140))
  width := ((previous.node? id).map Node.width).getD 160
  height := ((previous.node? id).map Node.height).getD 64
  fill := (colorLast? said name "fill".toList).getD "#F2F2F2".toList
  stroke := (colorLast? said name "stroke".toList).getD "#333333".toList
  textColor := (colorLast? said name "color".toList).getD "#111111".toList

/-- The edge is the one that a line draws, if names have these identifiers. -/
def DrawnBy (idOf : Text → Nat) : Line → Edge → Prop
  | .edge source arrow label target, e =>
    e = { id := e.id, source := idOf source, target := idOf target,
          label := unescape (label.getD []), arrow }
  | _, _ => False

/-! ### Names of a draft -/

namespace Draft

def roll (d : Draft) : Roll := ⟨d.scope, d.names, Entity.ids d.nodes⟩

variable {d : Draft} {name : Text}

theorem mention_new (h : lookup? d.names name = none) :
    d.mention name = ((d.scope.allot 'N' name).1,
      { d with
        scope := (d.scope.allot 'N' name).2
        names := (name, (d.scope.allot 'N' name).1) :: d.names
        nodes := d.nodes ++ [{ id := (d.scope.allot 'N' name).1, label := name }] }) := by
  unfold mention resolve
  rw [h]
  rfl

theorem declare_known {id : Nat} (h : lookup? d.names name = some id) (label : Text)
    (shape : Shape) :
    d.declare name label shape =
      match Entity.updateLast? (fun node : Node => { node with label, shape }) id d.nodes with
      | some nodes => { d with nodes }
      | none => d := by
  unfold declare resolve
  rw [h]
  rfl

theorem meets_mention (d : Draft) (name : Text) :
    Roll.Meets 'N' name (d.mention name).1 d.roll (d.mention name).2.roll := by
  cases h : lookup? d.names name with
  | some id =>
    rw [mention_known h]
    exact .known h
  | none =>
    rw [mention_new h]
    have hids : ∀ n : Node, Entity.ids (d.nodes ++ [n]) = Entity.ids d.nodes ++ [n.id] :=
      fun n => Entity.ids_append _ _
    unfold roll
    rw [hids]
    exact .new h rfl

theorem meets_declare (d : Draft) (name label : Text) (shape : Shape) :
    ∃ id, Roll.Meets 'N' name id d.roll (d.declare name label shape).roll := by
  cases h : lookup? d.names name with
  | some id =>
    refine ⟨id, ?_⟩
    rw [declare_known h]
    split
    · next nodes hn =>
      have hids : Entity.ids nodes = Entity.ids d.nodes :=
        Entity.ids_updateLast? (by intro node; rfl) hn
      unfold roll
      rw [hids]
      exact .known h
    · exact .known h
  | none =>
    refine ⟨(d.scope.allot 'N' name).1, ?_⟩
    rw [declare_new h]
    have hids : ∀ n : Node, Entity.ids (d.nodes ++ [n]) = Entity.ids d.nodes ++ [n.id] :=
      fun n => Entity.ids_append _ _
    unfold roll
    rw [hids]
    exact .new h rfl

end Draft

/-! ### Edges and styles of a draft -/

/-- An edge is the one that a line draws by the names of a draft. -/
def DrawnIn (names : List (Text × Nat)) : Line → Edge → Prop
  | .edge source arrow label target, e =>
    lookup? names source = some e.source ∧ lookup? names target = some e.target ∧
      e = { id := e.id, source := e.source, target := e.target,
            label := unescape (label.getD []), arrow }
  | _, _ => False

theorem DrawnIn.mono {names names' : List (Text × Nat)}
    (h : ∀ name id, lookup? names name = some id → lookup? names' name = some id) {l : Line}
    {e : Edge} (he : DrawnIn names l e) : DrawnIn names' l e := by
  cases l with
  | style => exact he
  | node => exact he
  | edge source arrow label target => exact ⟨h _ _ he.1, h _ _ he.2.1, he.2.2⟩

theorem DrawnIn.drawnBy {r : Roll} {l : Line} {e : Edge} (h : DrawnIn r.names l e) :
    DrawnBy r.idOf l e := by
  cases l with
  | style => exact h
  | node => exact h
  | edge source arrow label target =>
    obtain ⟨hs, ht, he⟩ := h
    show e = _
    rw [Roll.idOf_eq hs, Roll.idOf_eq ht]
    exact he

def Line.style? : Line → Option (Text × Text)
  | .style name declarations => some (name, declarations)
  | _ => none

/-! ### Labels and shapes -/

/-- The node of a name before it is placed and coloured. -/
def drafted (name : Text) (said : Option (Text × Shape)) (id : Nat) : Node :=
  { id, label := (said.map Prod.fst).getD name, shape := (said.map Prod.snd).getD .process }

section Labels

variable {said : List Line} {d : Draft} {name : Text} {labels labels' : Text → Option (Text × Shape)}

theorem saidLast?_concat (said : List Line) (l : Line) (name : Text) :
    saidLast? (said ++ [l]) name = (l.said? name).or (saidLast? said name) :=
  getLast?_filterMap_concat _ _ _

/-- Nothing is said of a name that is not there. -/
theorem saidLast?_eq_none (h : name ∉ said.flatMap Line.names) : saidLast? said name = none := by
  unfold saidLast?
  rw [List.getLast?_eq_none_iff, List.filterMap_eq_nil_iff]
  intro l hl
  cases l with
  | style => rfl
  | edge => rfl
  | node other label shape =>
    have hne : other ≠ name := by
      rintro rfl
      exact h (List.mem_flatMap.mpr ⟨_, hl, List.mem_cons_self⟩)
    exact if_neg hne

theorem made_mention (h : Made drafted d.names labels d.nodes)
    (hn : lookup? d.names name = none → labels name = none) :
    Made drafted (d.mention name).2.names labels (d.mention name).2.nodes := by
  cases hl : lookup? d.names name with
  | some id => rwa [Draft.mention_known hl]
  | none =>
    have hnew := h.new hl (d.scope.allot 'N' name).1 fun _ _ => rfl
    rw [hn hl] at hnew
    rw [Draft.mention_new hl]
    exact hnew

theorem made_declare {label : Text} {shape : Shape} (h : Made drafted d.names labels d.nodes)
    (hr : Roll.Enrolled (said.flatMap Line.names) d.roll)
    (hd : (Entity.ids d.nodes).Nodup) (hname : labels' name = some (label, shape))
    (hother : ∀ other, other ≠ name → labels' other = labels other) :
    Made drafted (d.declare name label shape).names labels' (d.declare name label shape).nodes := by
  cases hl : lookup? d.names name with
  | some id =>
    have hdistinct : (d.names.map Prod.snd).Nodup := hr.nodup_map_snd hd
    have hid : id ∈ Entity.ids d.nodes := hr.mem_ids hl
    have hknown := h.known hdistinct hr.nodup hl (fun _ _ _ => rfl)
      (f := fun node : Node => { node with label, shape }) (fun s => by rw [hname]; rfl) hother
    rw [Draft.declare_known hl, Entity.updateLast?_eq_map hd hid]
    exact hknown
  | none =>
    have hnew := h.new hl (d.scope.allot 'N' name).1 hother
    rw [hname] at hnew
    rw [Draft.declare_new hl]
    exact hnew

theorem made_addEdge (h : Made drafted d.names labels d.nodes)
    (hn : ∀ name, lookup? d.names name = none → labels name = none) (source : Text) (arrow : Arrow)
    (label : Option Text) (target : Text) :
    Made drafted (d.addEdge source arrow label target).names labels
      (d.addEdge source arrow label target).nodes := by
  have hsource := made_mention h (hn source)
  -- A target that is new behind the source was new before it.
  exact made_mention hsource fun hnone => hn target ((d.meets_mention source).lookup?_of_none hnone)

end Labels

/-! ### Lines one by one -/

/-- The draft of lines that say `said`, begun with nothing but a scope. As long as its nodes differ in
their identifiers, they have the label and the shape that was said last of their names. -/
structure Draft.Follows (scope : Scope) (said : List Line) (d : Draft) : Prop where
  calls : Roll.Calls 'N' ⟨scope, [], []⟩ (said.flatMap Line.names) d.roll
  edges : List.Forall₂ (DrawnIn d.names) (said.filter Line.isEdge) d.edges
  styles : d.styles = said.filterMap Line.style?
  nodes : (Entity.ids d.nodes).Nodup → Made drafted d.names (saidLast? said) d.nodes

section Follows

variable {scope : Scope} {said : List Line} {d : Draft} {line : Text}

theorem follows_start (scope : Scope) : Draft.Follows scope [] { scope } :=
  ⟨.done, .nil, rfl, fun _ => rfl⟩

theorem Draft.Follows.enrolled (h : d.Follows scope said) :
    Roll.Enrolled (said.flatMap Line.names) d.roll := h.calls.enrolled ⟨rfl, rfl⟩

/-- Meeting a name draws no edge and keeps no style. -/
theorem mention_frame (d : Draft) (name : Text) :
    (d.mention name).2.edges = d.edges ∧ (d.mention name).2.styles = d.styles := by
  cases h : lookup? d.names name with
  | some id => simp [Draft.mention_known h]
  | none => simp [Draft.mention_new h]

theorem declare_frame (d : Draft) (name label : Text) (shape : Shape) :
    (d.declare name label shape).edges = d.edges ∧
      (d.declare name label shape).styles = d.styles := by
  cases h : lookup? d.names name with
  | some id =>
    rw [Draft.declare_known h]
    split <;> simp
  | none => simp [Draft.declare_new h]

theorem follows_addEdge (h : d.Follows scope said) (source : Text) (arrow : Arrow)
    (label : Option Text) (target : Text) :
    (d.addEdge source arrow label target).Follows scope
      (said ++ [.edge source arrow label target]) := by
  have hsource := d.meets_mention source
  have htarget := (d.mention source).2.meets_mention target
  obtain ⟨hedges, hstyles⟩ := mention_frame d source
  obtain ⟨hedges', hstyles'⟩ := mention_frame (d.mention source).2 target
  constructor
  · have hcalls := ((h.calls.meet hsource).meet htarget).draw
    rw [List.append_assoc] at hcalls
    rw [List.flatMap_append, List.flatMap_singleton]
    exact hcalls
  · -- Names that were known before the line, and the source behind it, are known when it ends.
    have hold : List.Forall₂ (DrawnIn (d.addEdge source arrow label target).names)
        (said.filter Line.isEdge) d.edges :=
      h.edges.imp fun _ _ he =>
        he.mono fun _ _ hi => htarget.lookup?_of_some (hsource.lookup?_of_some hi)
    rw [List.filter_append]
    show List.Forall₂ _ _ (((d.mention source).2.mention target).2.edges ++ _)
    rw [hedges', hedges]
    refine List.rel_append hold (.cons ⟨?_, htarget.lookup?_eq, rfl⟩ .nil)
    exact htarget.lookup?_of_some hsource.lookup?_eq
  · rw [List.filterMap_append]
    show ((d.mention source).2.mention target).2.styles = _
    rw [hstyles', hstyles, h.styles]
    simp [Line.style?]
  · intro hd
    have hbefore := hd.sublist (hsource.ids_prefix.trans htarget.ids_prefix).sublist
    have hsame : saidLast? (said ++ [.edge source arrow label target]) = saidLast? said :=
      funext fun other => saidLast?_concat said _ other
    have hold : ∀ name, lookup? d.names name = none → saidLast? said name = none :=
      fun name hn => saidLast?_eq_none (h.enrolled.lookup?_eq_none_iff.mp hn)
    rw [hsame]
    exact made_addEdge (h.nodes hbefore) hold source arrow label target

theorem follows_declare (h : d.Follows scope said) (name label : Text) (shape : Shape) :
    (d.declare name (unescape label) shape).Follows scope (said ++ [.node name label shape]) := by
  obtain ⟨id, hmeets⟩ := d.meets_declare name (unescape label) shape
  obtain ⟨hedges, hstyles⟩ := declare_frame d name (unescape label) shape
  constructor
  · rw [List.flatMap_append, List.flatMap_singleton]
    exact h.calls.meet hmeets
  · have hnode : [Line.node name label shape].filter Line.isEdge = [] := rfl
    rw [List.filter_append, hnode, List.append_nil, hedges]
    exact h.edges.imp fun _ _ he => he.mono fun _ _ hi => hmeets.lookup?_of_some hi
  · rw [hstyles, h.styles, List.filterMap_append]
    simp [Line.style?]
  · intro hd
    have hbefore := hd.sublist hmeets.ids_prefix.sublist
    refine made_declare (h.nodes hbefore) h.enrolled hbefore ?_ ?_
    · rw [saidLast?_concat, Line.said?, if_pos rfl, Option.some_or]
    · intro other hne
      rw [saidLast?_concat, Line.said?, if_neg (Ne.symm hne), Option.none_or]

theorem follows_readLine_none (h : d.Follows scope said) (hl : readLine? line = none) :
    (d.readLine line).Follows scope said := by
  unfold Draft.readLine
  rw [hl]
  exact ⟨h.calls.note _ _, h.edges, h.styles, h.nodes⟩

theorem follows_readLine_some (h : d.Follows scope said) {l : Line} (hl : readLine? line = some l) :
    (d.readLine line).Follows scope (said ++ [l]) := by
  unfold Draft.readLine
  rw [hl]
  cases l with
  | style name declarations =>
    refine ⟨?_, ?_, ?_, ?_⟩
    · have hstyle : [Line.style name declarations].flatMap Line.names = [] := rfl
      rw [List.flatMap_append, hstyle, List.append_nil]
      exact h.calls
    · rw [List.filter_append]
      simpa [Line.isEdge] using h.edges
    · simp [List.filterMap_append, h.styles, Line.style?]
    · have hsame : saidLast? (said ++ [.style name declarations]) = saidLast? said :=
        funext fun other => saidLast?_concat said _ other
      rw [hsame]
      exact h.nodes
  | edge source arrow label target => exact follows_addEdge h source arrow label target
  | node name label shape => exact follows_declare h name label shape

theorem follows_readLines (scope : Scope) (lines : List Text) :
    (lines.foldl Draft.readLine { scope }).Follows scope (lines.filterMap readLine?) :=
  foldl_said readLine? Draft.readLine (P := Draft.Follows scope) (follows_start scope)
    (fun _ _ _ hl h => follows_readLine_none h hl)
    (fun _ _ _ _ hl h => follows_readLine_some h hl) lines

end Follows

/-! ### Colours -/

theorem applyDeclaration_eq_valueOf? (n : Node) (declaration : Text) :
    applyDeclaration n declaration =
      { n with
        fill := (valueOf? "fill".toList declaration).getD n.fill
        stroke := (valueOf? "stroke".toList declaration).getD n.stroke
        textColor := (valueOf? "color".toList declaration).getD n.textColor } := by
  unfold applyDeclaration valueOf?
  rcases (splitOn ':' declaration).map trim with _ | ⟨key, _ | ⟨value, rest⟩⟩
  · rfl
  · rfl
  · dsimp only
    by_cases hvalue : value = []
    · simp [hvalue]
    · by_cases hfill : key = "fill".toList
      · simp [hvalue, hfill]
      · by_cases hstroke : key = "stroke".toList
        · simp [hvalue, hstroke]
        · simp only [hvalue, hfill, hstroke, if_false, ne_eq, not_false_eq_true, and_true,
            Option.getD_none]
          split <;> rfl

theorem foldl_applyDeclaration (declarations : List Text) (n : Node) :
    declarations.foldl applyDeclaration n =
      { n with
        fill := ((declarations.filterMap (valueOf? "fill".toList)).getLast?).getD n.fill
        stroke := ((declarations.filterMap (valueOf? "stroke".toList)).getLast?).getD n.stroke
        textColor :=
          ((declarations.filterMap (valueOf? "color".toList)).getLast?).getD n.textColor } := by
  induction declarations using List.reverseRecOn with
  | nil => rfl
  | append_singleton declarations declaration ih =>
    rw [List.foldl_append, List.foldl_cons, List.foldl_nil, applyDeclaration_eq_valueOf?, ih]
    simp only [getLast?_filterMap_concat, Option.getD_or]

theorem styleNode_eq_map (names : List (Text × Nat)) {nodes : List Node} (scope : Scope)
    (style : Text × Text) (hd : (Entity.ids nodes).Nodup) :
    (styleNode names (nodes, scope) style).1 =
      nodes.map fun n => if lookup? names style.1 = some n.id then applyStyle style.2 n else n := by
  unfold styleNode
  cases lookup? names style.1 with
  | none => simp
  | some id =>
    have hids : (fun n : Node => if some id = some n.id then applyStyle style.2 n else n) =
        fun n => if Entity.id n = id then applyStyle style.2 n else n := by
      funext n
      have hsome : some id = some n.id ↔ Entity.id n = id := by
        rw [Option.some.injEq]
        exact eq_comm
      exact if_congr hsome rfl rfl
    rw [hids]
    by_cases hid : id ∈ Entity.ids nodes
    · simp only [Entity.update?_eq_map hd hid]
    · simp only [Entity.update?_eq_none hid, Entity.map_ite_of_not_mem hid]

/-- With distinct identifiers a node has the styles of its names, in turn, and no others. -/
theorem foldl_styleNode_eq_map (names : List (Text × Nat)) (styles : List (Text × Text))
    {nodes : List Node} (scope : Scope) (hd : (Entity.ids nodes).Nodup) :
    (styles.foldl (styleNode names) (nodes, scope)).1 = nodes.map fun n =>
      (styles.filter fun style => lookup? names style.1 = some n.id).foldl
        (fun n style => applyStyle style.2 n) n := by
  induction styles generalizing nodes scope with
  | nil => simp
  | cons style styles ih =>
    have hstyled := styleNode_eq_map names scope style hd
    have hids : Entity.ids (styleNode names (nodes, scope) style).1 = Entity.ids nodes := by
      rw [← ids_uncolored, uncolored_styleNode, ids_uncolored]
    have hrest := ih (styleNode names (nodes, scope) style).2 (hids ▸ hd)
    rw [List.foldl_cons]
    refine hrest.trans ?_
    rw [hstyled, List.map_map]
    refine List.map_congr_left fun n _ => ?_
    rw [Function.comp_apply]
    by_cases hname : lookup? names style.1 = some n.id
    · rw [if_pos hname, id_applyStyle, List.filter_cons_of_pos (by simpa using hname),
        List.foldl_cons]
    · rw [if_neg hname, List.filter_cons_of_neg (by simpa using hname)]

/-- All styles of a name come to all declarations that lines make for it. -/
theorem foldl_applyStyle (said : List Line) (name : Text) (n : Node) :
    ((said.filterMap Line.style?).filter fun style => style.1 = name).foldl
        (fun n style => applyStyle style.2 n) n =
      (said.flatMap (Line.declarations name)).foldl applyDeclaration n := by
  induction said generalizing n with
  | nil => rfl
  | cons l said ih =>
    cases l with
    | edge => exact ih n
    | node => exact ih n
    | style other declarations =>
      have hstyle : (Line.style other declarations).style? = some (other, declarations) := rfl
      rw [List.filterMap_cons_some hstyle, List.flatMap_cons, List.foldl_append, Line.declarations]
      by_cases hother : other = name
      · rw [List.filter_cons_of_pos (by simpa using hother), List.foldl_cons, if_pos hother, ih]
        rfl
      · rw [List.filter_cons_of_neg (by simpa using hother), if_neg hother, ih]
        rfl

/-! ### The whole chart -/

theorem settleFrom_eq_mapIdx (previous : Flowchart) (index : Nat) (nodes : List Node) :
    settleFrom previous index nodes = nodes.mapIdx fun i n => settle previous (index + i) n := by
  induction nodes generalizing index with
  | nil => rfl
  | cons n nodes ih =>
    rw [settleFrom, ih, List.mapIdx_cons]
    refine congrArg _ (congrArg (fun f => List.mapIdx f nodes) ?_)
    funext i n
    rw [Nat.add_assoc, Nat.add_comm 1 i]

/-- Every quantity of a place is that of the node before, if there was one, else one of its own. -/
theorem settle_eq (previous : Flowchart) (index : Nat) (n : Node) :
    settle previous index n =
      { n with
        x := ((previous.node? n.id).map Node.x).getD (gridX index)
        y := ((previous.node? n.id).map Node.y).getD (gridY index)
        width := ((previous.node? n.id).map Node.width).getD n.width
        height := ((previous.node? n.id).map Node.height).getD n.height } := by
  unfold settle
  -- Every rewriting is a step of its own: the kernel must not compute places on the grid.
  cases previous.node? n.id with
  | some old => simp -implicitDefEqProofs only [Option.map_some, Option.getD_some]
  | none => simp -implicitDefEqProofs only [Option.map_none, Option.getD_none]

/-- Placing and colouring a drafted node makes the node that is meant. -/
theorem nodeMeant_eq (said : List Line) (previous : Flowchart) (index : Nat) (name : Text)
    (id : Nat) :
    (said.flatMap (Line.declarations name)).foldl applyDeclaration
        (settle previous index (drafted name (saidLast? said name) id)) =
      nodeMeant said previous index name id := by
  rw [foldl_applyDeclaration, settle_eq]
  rfl

/-- A node has the identifier of its name alone, so the styles of other names pass it by. -/
theorem Draft.Follows.foldl_own {scope : Scope} {said : List Line} {d : Draft} {name : Text}
    {n : Node} (h : d.Follows scope said) (hd : (Entity.ids d.nodes).Nodup)
    (hname : name ∈ said.flatMap Line.names) (hn : n.id = d.roll.idOf name) :
    (d.styles.filter fun style => lookup? d.names style.1 = some n.id).foldl
        (fun n style => applyStyle style.2 n) n =
      (said.flatMap (Line.declarations name)).foldl applyDeclaration n := by
  have hown : ∀ style : Text × Text,
      decide (lookup? d.names style.1 = some n.id) = decide (style.1 = name) := by
    intro style
    rw [hn]
    exact decide_eq_decide.mpr (h.enrolled.lookup?_eq_idOf_iff hd hname style.1)
  simp only [hown]
  rw [h.styles, foldl_applyStyle]

/-- The nodes of a draft, once they are placed and coloured. -/
theorem Draft.Follows.styled {scope : Scope} {said : List Line} {d : Draft}
    (h : d.Follows scope said) (hd : (Entity.ids d.nodes).Nodup) (previous : Flowchart) (s : Scope) :
    (d.styles.foldl (styleNode d.names) (settleFrom previous 0 d.nodes, s)).1 =
      (namesIn said).mapIdx fun index name =>
        nodeMeant said previous index name (d.roll.idOf name) := by
  have hnames : d.names.reverse = (namesIn said).map fun name => (name, d.roll.idOf name) :=
    h.enrolled.reverse_names
  have hnodes : d.nodes = (namesIn said).map fun name =>
      drafted name (saidLast? said name) (d.roll.idOf name) := by
    rw [h.nodes hd, hnames, List.map_map]
    rfl
  have hsettled : (Entity.ids (settleFrom previous 0 d.nodes)).Nodup := by
    rwa [ids_settleFrom]
  rw [foldl_styleNode_eq_map _ _ _ hsettled, hnodes, settleFrom_eq_mapIdx]
  refine List.ext_getElem (by simp) fun index hindex hindex' => ?_
  rw [List.length_mapIdx] at hindex'
  have hmem : (namesIn said)[index] ∈ said.flatMap Line.names :=
    List.mem_eraseDups.mp (List.getElem_mem hindex')
  rw [List.getElem_map, List.getElem_mapIdx, List.getElem_mapIdx, List.getElem_map, Nat.zero_add,
    h.foldl_own hd hmem (settle_id _ _ _), nodeMeant_eq]

/-- The chart that lines describe: the nodes of their names, and the edges that they draw. -/
structure Describes (said : List Line) (previous : Flowchart) (idOf : Text → Nat) (f : Flowchart) :
    Prop where
  nodes : f.nodes =
    (namesIn said).mapIdx fun index name => nodeMeant said previous index name (idOf name)
  edges : List.Forall₂ (DrawnBy idOf) (said.filter Line.isEdge) f.edges
  distinct : ((namesIn said).map idOf ++ Entity.ids f.edges).Nodup

section Read

variable {scope : Scope} {lines : List Text} {previous : Flowchart}

/-- While counting goes on, no two entities of a draft share an identifier. -/
theorem nodup_entityIds (hc : scope.claimed = [])
    (hn : (lines.foldl Draft.readLine { scope }).scope.next < EntityId.largest) :
    (lines.foldl Draft.readLine { scope }).entityIds.Nodup := by
  have hfollows := follows_readLines scope lines
  have haccounts := Scope.accounts_foldl Draft.scope Draft.entityIds Draft.readLine
    accounts_readLine lines { scope }
  exact hfollows.calls.nodup hc hn haccounts

theorem edges_read (lines : List Text) (scope : Scope) (previous : Flowchart) :
    List.Forall₂ (DrawnBy (lines.foldl Draft.readLine { scope }).roll.idOf)
      ((lines.filterMap readLine?).filter Line.isEdge) (read lines scope previous).1.edges :=
  (follows_readLines scope lines).edges.imp fun _ _ he => he.drawnBy (r := Draft.roll _)

/-- What lines say together is what reading them one by one makes of them. -/
theorem describes_read (hc : scope.claimed = [])
    (hn : (read lines scope previous).2.next < EntityId.largest) :
    ∃ idOf, Describes (lines.filterMap readLine?) previous idOf (read lines scope previous).1 := by
  have hcounted := (grants_styles_read lines scope previous).grows hn
  have hdistinct := nodup_entityIds hc (Nat.lt_of_le_of_lt hcounted hn)
  have hnodes := (List.nodup_append.mp hdistinct).1
  have hfollows := follows_readLines scope lines
  refine ⟨(lines.foldl Draft.readLine { scope }).roll.idOf, ?_, ?_, ?_⟩
  · exact hfollows.styled hnodes previous _
  · exact edges_read lines scope previous
  · have hids : Entity.ids (lines.foldl Draft.readLine { scope }).nodes = _ :=
      hfollows.enrolled.ids_eq
    unfold Draft.entityIds at hdistinct
    rwa [hids] at hdistinct

/-- Reading lines into any diagram makes the chart that the lines mean together, as long as counting
does not come to its end. What a line says is how it is spelled. -/
theorem exists_describes_read (d : Diagram) (lines : List Text)
    (h : (read lines (Scope.ofDiagram d .flowchart) d.flowchart).2.next < EntityId.largest) :
    (∀ line ∈ lines, ∀ name label shape,
        readLine? line = some (.node name label shape) ↔
          ∃ gap, NodeText line name gap label shape ∧
            (gap ≠ [] → sameIgnoringCase name "style".toList = false)) ∧
      (∀ line ∈ lines, ∀ name declarations,
        readLine? line = some (.style name declarations) ↔ StyleText line name declarations) ∧
      (∀ line ∈ lines, ∀ source arrow label target,
        readLine? line = some (.edge source arrow label target) →
          ∃ gap, EdgeText line source gap arrow label target) ∧
      ∃ idOf, Describes (lines.filterMap readLine?) d.flowchart idOf
        (read lines (Scope.ofDiagram d .flowchart) d.flowchart).1 :=
  ⟨fun _ _ _ _ _ => readLine?_eq_node_iff, fun _ _ _ _ => readLine?_eq_style_iff,
    fun _ _ _ _ _ _ => edgeText_of_readLine?, describes_read rfl h⟩

end Read

/-- A style before its node, a name that is declared again, and an edge that makes a node. -/
def sketch : List Text :=
  ["style B fill:red, stroke: blue".toList, "A -->|x| B".toList, "N3[old]".toList, "(".toList,
   "B -.-> N3".toList, "N3\x7bnew\x7d".toList, "style B stroke: ,fill: green".toList]

def sketched : Diagram where
  counter := 8
  flowchart := { nodes := [{ id := 3, label := [], x := 5, width := 90 }] }

theorem exists_describes_read_sketch :
    (read sketch (Scope.ofDiagram sketched .flowchart) sketched.flowchart).2.next = 12 ∧
      namesIn (sketch.filterMap readLine?) = ["A".toList, "B".toList, "N3".toList] ∧
      (∃ gap, NodeText "N3\x7bnew\x7d".toList "N3".toList gap "new".toList .decision) ∧
      StyleText "style B stroke: ,fill: green".toList "B".toList "stroke: ,fill: green".toList ∧
      (∃ gap, EdgeText "B -.-> N3".toList "B".toList gap .dashed none "N3".toList) ∧
      ∃ idOf, Describes (sketch.filterMap readLine?) sketched.flowchart idOf
        (read sketch (Scope.ofDiagram sketched .flowchart) sketched.flowchart).1 := by
  obtain ⟨hnodes, hstyles, hedges, hdescribes⟩ := exists_describes_read sketched sketch (by decide)
  obtain ⟨gap, hnode, -⟩ := (hnodes "N3\x7bnew\x7d".toList (by decide) "N3".toList "new".toList
    .decision).mp (by decide)
  exact ⟨by decide, by decide, ⟨gap, hnode⟩, (hstyles _ (by decide) _ _).mp (by decide),
    hedges _ (by decide) _ _ _ _ (by decide), hdescribes⟩

end DiagramDoc.Dialect.Flow
