import ImportAtlas.Graph.Basic

/-!
# Import cycles

Files that import each other, directly or through others. A group holds all
files that can reach each other through imports; a file alone is a group when
it imports itself.
-/

namespace ImportAtlas.ImportGraph

/-- All nodes that the pending ones reach, with those already seen; `steps`
bounds the search. -/
def reachFrom (graph : ImportGraph) : Nat → List Nat → List Nat → List Nat
  | 0, _, seen => seen
  | _ + 1, [], seen => seen
  | steps + 1, index :: pending, seen =>
    if seen.contains index then reachFrom graph steps pending seen
    else reachFrom graph steps (graph.successors index ++ pending)
      (index :: seen)

def reached (graph : ImportGraph) (index : Nat) : List Nat :=
  let next := graph.successors index
  reachFrom graph (graph.edges.length + next.length + 1) next []

def cycleMates (table : List (List Nat)) (index : Nat) : List Nat :=
  (List.range table.length).filter fun other =>
    ((table[index]?.getD []).contains other) &&
      ((table[other]?.getD []).contains index)

def comparePaths : List Path → List Path → Ordering
  | [], [] => .eq
  | [], _ :: _ => .lt
  | _ :: _, [] => .gt
  | first :: firsts, second :: seconds =>
    (first.compare second).then (comparePaths firsts seconds)

/-- All groups of files that import each other, sorted, each group sorted. -/
def cycles (graph : ImportGraph) : List (List Path) :=
  let table := (List.range graph.nodes.length).map graph.reached
  let groups := (List.range graph.nodes.length).filterMap fun index =>
    match cycleMates table index with
    | first :: others => if first = index then some (first :: others) else none
    | [] => none
  let files :=
    groups.map fun group => Path.sort (group.filterMap graph.filePath?)
  (files.filter fun group => !group.isEmpty).mergeSort fun first second =>
    (comparePaths first second).isLE

end ImportAtlas.ImportGraph
