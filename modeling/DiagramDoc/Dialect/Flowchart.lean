import DiagramDoc.Dialect.Line
import DiagramDoc.Dialect.Scope

/-!
# Flowchart text

A line declares a node, draws an edge between two names, or sets the colours of a node. Reading
keeps the place and size of nodes that were there before, and puts new ones on a grid.
-/

namespace DiagramDoc.Dialect.Flow

def arrowSign : Arrow → Text
  | .forward => ['-', '-', '>']
  | .line => ['-', '-', '-']
  | .dashed => ['-', '.', '-', '>']
  | .thick => ['=', '=', '>']
  | .both => ['<', '-', '-', '>']

def readArrow? (t : Text) : Option (Arrow × Text) :=
  [Arrow.both, .dashed, .forward, .line, .thick].findSome? fun arrow =>
    (Text.stripPrefix? (arrowSign arrow) t).map fun rest => (arrow, rest)

def isNameChar (c : Char) : Bool :=
  !Text.isBlank c && c ∉ ['[', ']', '\x7b', '\x7d', '(', ')', '"', '|']

/-- Reads on in a name: it ends before an arrow and before a character that no name holds. -/
def readNameOn : Text → Text × Text
  | [] => ([], [])
  | c :: rest =>
    if isNameChar c && (readArrow? (c :: rest)).isNone then
      let (name, rest) := readNameOn rest
      (c :: name, rest)
    else ([], c :: rest)

def readName : Text → Text × Text
  | [] => ([], [])
  | c :: rest =>
    if isNameChar c then
      let (name, rest) := readNameOn rest
      (c :: name, rest)
    else ([], c :: rest)

inductive Line where
  | style (name declarations : Text)
  | edge (source : Text) (arrow : Arrow) (label : Option Text) (target : Text)
  | node (name label : Text) (shape : Shape)
deriving DecidableEq

/-- The label between brackets that make up a whole text, and the shape that the brackets mean. -/
def readShape? (t : Text) : Option (Text × Shape) :=
  match t with
  | '\x7b' :: inner => (Text.stripSuffix? ['\x7d'] inner).map (·, .decision)
  | '(' :: '[' :: inner => (Text.stripSuffix? [']', ')'] inner).map (·, .terminator)
  | '[' :: inner =>
    match (Text.stripPrefix? ['"'] inner).bind (Text.stripSuffix? ['"', ']']) with
    | some label => some (label, .process)
    | none => (Text.stripSuffix? [']'] inner).map (·, .process)
  | _ => none

/-- The rest of an edge after its arrow: a label between bars, if there is one, and a name. -/
def readEdge? (source : Text) (arrow : Arrow) (t : Text) : Option Line :=
  match t with
  | '|' :: labelled =>
    match Text.cutUnescaped? '|' labelled with
    | none => none
    | some (label, rest) => finish (some label) (Text.trimStart rest)
  | rest => finish none rest
where
  finish (label : Option Text) (rest : Text) : Option Line :=
    let (target, tail) := readName rest
    if target ≠ [] ∧ tail = [] then some (.edge source arrow label target) else none

def readLine? (line : Text) : Option Line :=
  match Text.afterKeyword? "style".toList line with
  | some rest =>
    let (name, declarations) := Text.splitWord rest
    if name ≠ [] ∧ declarations ≠ [] then some (.style name declarations) else none
  | none =>
    let (name, rest) := readName line
    if name = [] then none
    else
      let rest := Text.trimStart rest
      match readArrow? rest with
      | some (arrow, after) => readEdge? name arrow (Text.trimStart after)
      | none => (readShape? rest).map fun (label, shape) => .node name label shape

structure Draft where
  scope : Scope
  names : List (Text × Nat) := []
  nodes : List Node := []
  edges : List Edge := []
  styles : List (Text × Text) := []

namespace Draft

def resolve (d : Draft) (name : Text) : Nat × Bool × Draft :=
  match lookup? d.names name with
  | some id => (id, false, d)
  | none =>
    let (id, scope) := d.scope.allot 'N' name
    (id, true, { d with scope, names := (name, id) :: d.names })

def mention (d : Draft) (name : Text) : Nat × Draft :=
  let (id, isNew, d) := d.resolve name
  (id, if isNew then { d with nodes := d.nodes ++ [{ id, label := name }] } else d)

/-- Makes a node for a new name, and relabels the node of a known one. Names share an identifier
only when there are no more fresh ones; the latest of their nodes is meant then. -/
def declare (d : Draft) (name label : Text) (shape : Shape) : Draft :=
  let (id, isNew, d) := d.resolve name
  if isNew then { d with nodes := d.nodes ++ [{ id, label, shape }] }
  else
    match Entity.updateLast? (fun node : Node => { node with label, shape }) id d.nodes with
    | some nodes => { d with nodes }
    | none => d

def addEdge (d : Draft) (source : Text) (arrow : Arrow) (label : Option Text) (target : Text) :
    Draft :=
  let (source, d) := d.mention source
  let (target, d) := d.mention target
  let (id, scope) := d.scope.fresh
  let edge : Edge := { id, source, target, label := Text.unescape (label.getD []), arrow }
  { d with scope, edges := d.edges ++ [edge] }

def readLine (d : Draft) (line : Text) : Draft :=
  match readLine? line with
  | some (.style name declarations) => { d with styles := d.styles ++ [(name, declarations)] }
  | some (.edge source arrow label target) => d.addEdge source arrow label target
  | some (.node name label shape) => d.declare name (Text.unescape label) shape
  | none => { d with scope := d.scope.skip .flowchart line }

end Draft

def gridX (index : Nat) : Number := .ofNat (180 + index % 4 * 220)

def gridY (index : Nat) : Number := .ofNat (140 + index / 4 * 140)

/-- Puts the `index`-th node where it was before, or on the grid. -/
def settle (previous : Flowchart) (index : Nat) (node : Node) : Node :=
  match previous.node? node.id with
  | some old => { node with x := old.x, y := old.y, width := old.width, height := old.height }
  | none => { node with x := gridX index, y := gridY index }

def settleFrom (previous : Flowchart) : Nat → List Node → List Node
  | _, [] => []
  | index, node :: nodes => settle previous index node :: settleFrom previous (index + 1) nodes

/-- One declaration `key:value`; unknown keys and empty values change nothing. -/
def applyDeclaration (node : Node) (declaration : Text) : Node :=
  match (Text.splitOn ':' declaration).map Text.trim with
  | key :: value :: _ =>
    if value = [] then node
    else if key = "fill".toList then { node with fill := value }
    else if key = "stroke".toList then { node with stroke := value }
    else if key = "color".toList then { node with textColor := value }
    else node
  | _ => node

def applyStyle (declarations : Text) (node : Node) : Node :=
  (Text.splitOn ',' declarations).foldl applyDeclaration node

/-- Styles the node of a name; a style of a name without a node is only noted. -/
def styleNode (names : List (Text × Nat)) (state : List Node × Scope) (style : Text × Text) :
    List Node × Scope :=
  match lookup? names style.1 with
  | none =>
    (state.1,
      state.2.note "style line targets an unknown node".toList [("token".toList, style.1)])
  | some id =>
    match Entity.update? (applyStyle style.2) id state.1 with
    | some nodes => (nodes, state.2)
    | none => state

/-- The chart that lines describe. Styles are applied when all nodes are known. -/
def read (lines : List Text) (scope : Scope) (previous : Flowchart) : Flowchart × Scope :=
  let draft := lines.foldl Draft.readLine { scope }
  let (nodes, scope) :=
    draft.styles.foldl (styleNode draft.names) (settleFrom previous 0 draft.nodes, draft.scope)
  ({ nodes, edges := draft.edges }, scope)

def nodeName (id : Nat) : Text := 'N' :: EntityId.toText id

def shapeText (shape : Shape) (label : Text) : Text :=
  match shape with
  | .decision => '\x7b' :: (label ++ ['\x7d'])
  | .terminator => '(' :: '[' :: (label ++ [']', ')'])
  | .process => '[' :: '"' :: (label ++ ['"', ']'])

def nodeLine (n : Node) : Text := nodeName n.id ++ shapeText n.shape (Text.escape n.label)

def edgeLine (e : Edge) : Text :=
  nodeName e.source ++ ' ' :: arrowSign e.arrow ++
    (if e.label = [] then [] else '|' :: (Text.escape e.label ++ ['|'])) ++ ' ' :: nodeName e.target

def styleLine (n : Node) : Text :=
  "style ".toList ++ nodeName n.id ++ " fill:".toList ++ n.fill ++ ",stroke:".toList ++ n.stroke ++
    ",color:".toList ++ n.textColor

def write (f : Flowchart) : Text :=
  body "flowchart TD".toList
    (f.nodes.map nodeLine ++ f.connectedEdges.map edgeLine ++ f.nodes.map styleLine)

end DiagramDoc.Dialect.Flow
