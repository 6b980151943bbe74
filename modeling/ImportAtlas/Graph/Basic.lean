import ImportAtlas.Module.Record

/-!
# Import graphs

The nodes of an import graph are files and packages, numbered in the order of
their first mention; files with the same key are one node. There is an edge for
every import, from the importing file to what it imports.
-/

namespace ImportAtlas

inductive NodeKey where
  | file (key : String)
  | package (name : String)
  deriving DecidableEq, Repr

def NodeKey.of : Target → NodeKey
  | .file path => .file path.key
  | .package name => .package name

structure ImportEdge where
  source : Nat
  target : Nat
  style : ImportStyle
  line : Nat
  deriving DecidableEq, Repr

structure ImportGraph where
  nodes : List Target
  edges : List ImportEdge
  deriving DecidableEq, Repr

namespace ImportGraph

def empty : ImportGraph :=
  ⟨[], []⟩

def keyIndex? (key : NodeKey) : List Target → Option Nat
  | [] => none
  | node :: nodes =>
    if NodeKey.of node = key then some 0 else (keyIndex? key nodes).map (· + 1)

def index? (graph : ImportGraph) (node : Target) : Option Nat :=
  keyIndex? (.of node) graph.nodes

def addModule (graph : ImportGraph) (node : Target) : ImportGraph × Nat :=
  match graph.index? node with
  | some index => (graph, index)
  | none => ({ graph with nodes := graph.nodes ++ [node] }, graph.nodes.length)

def addFile (graph : ImportGraph) (path : Path) : ImportGraph × Nat :=
  graph.addModule (.file path)

def addImport (graph : ImportGraph) (source : Path) (target : Target)
    (style : ImportStyle) (line : Nat) :
    ImportGraph :=
  let (withSource, sourceIndex) := graph.addFile source
  let (withTarget, targetIndex) := withSource.addModule target
  { withTarget with
    edges := withTarget.edges ++ [⟨sourceIndex, targetIndex, style, line⟩] }

def containsFile (graph : ImportGraph) (path : Path) : Bool :=
  (graph.index? (.file path)).isSome

def distinct : List Nat → List Nat
  | [] => []
  | index :: rest => index :: (distinct rest).filter (· != index)

def successors (graph : ImportGraph) (index : Nat) : List Nat :=
  (graph.edges.filter fun edge => edge.source == index).map ImportEdge.target

def predecessors (graph : ImportGraph) (index : Nat) : List Nat :=
  (graph.edges.filter fun edge => edge.target == index).map ImportEdge.source

/-- What a file imports, each once, in the order of its imports. -/
def importsOf (graph : ImportGraph) (path : Path) : List Target :=
  match graph.index? (.file path) with
  | none => []
  | some index =>
    (distinct (graph.successors index)).filterMap fun target =>
      graph.nodes[target]?

def filePath? (graph : ImportGraph) (index : Nat) : Option Path :=
  graph.nodes[index]?.bind Target.file?

def dropRepeats : List Path → List Path
  | [] => []
  | [path] => [path]
  | first :: second :: rest =>
    if first.same second then dropRepeats (first :: rest)
    else first :: dropRepeats (second :: rest)

/-- The files that import a file, sorted, each once. -/
def importersOf (graph : ImportGraph) (path : Path) : List Path :=
  match graph.index? (.file path) with
  | none => []
  | some index =>
    dropRepeats
      (Path.sort ((graph.predecessors index).filterMap graph.filePath?))

def inCount (graph : ImportGraph) (index : Nat) : Nat :=
  (graph.predecessors index).length

def importCount (graph : ImportGraph) (path : Path) : Nat :=
  match graph.index? (.file path) with
  | none => 0
  | some index => graph.inCount index

def fileCounts (graph : ImportGraph) : List (Path × Nat) :=
  (List.range graph.nodes.length).filterMap fun index =>
    (graph.filePath? index).map fun path => (path, graph.inCount index)

end ImportGraph

end ImportAtlas
