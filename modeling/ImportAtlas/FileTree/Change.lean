import ImportAtlas.FileTree.Basic
import ImportAtlas.Path.Normal

/-!
# Changing a file tree

Writing and removing entries. A new entry comes after those that are there; an
entry that is written again keeps its place.
-/

namespace ImportAtlas.FileTree

def put (name : String) (entry : Entry) :
    List (String × Entry) → List (String × Entry)
  | [] => [(name, entry)]
  | (other, old) :: entries =>
    if other = name then (other, entry) :: entries
    else (other, old) :: put name entry entries

def entriesOf : Option Entry → List (String × Entry)
  | some (.directory entries) => entries
  | _ => []

def putBelow (entry : Entry) :
    List String → List (String × Entry) → List (String × Entry)
  | [], entries => entries
  | [name], entries => put name entry entries
  | name :: names, entries =>
    put name
      (.directory (putBelow entry names (entriesOf (lookup? name entries))))
      entries

def putAt (tree : FileTree) (location : Location) (entry : Entry) : FileTree :=
  ⟨putBelow entry location.reverse tree.entries⟩

def removeBelow : List String → List (String × Entry) → List (String × Entry)
  | [], entries => entries
  | [name], entries => entries.filter fun entry => entry.1 != name
  | name :: names, entries =>
    match lookup? name entries with
    | some (.directory below) =>
      put name (.directory (removeBelow names below)) entries
    | _ => entries

/-- Removes what stands at a path, a link itself rather than its target. -/
def remove (tree : FileTree) (path : Path) : FileTree :=
  match path.parent?, path.fileName? with
  | some above, some name =>
    match place tree above with
    | .ok (.entry location (.directory _)) =>
      ⟨removeBelow (location.reverse ++ [name]) tree.entries⟩
    | _ => tree
  | _, _ => tree

/-- Writes a file into a directory that exists; a path that ends with a slash
names no file. -/
def write (tree : FileTree) (path : Path) (text : Option String) :
    Except ReadError FileTree :=
  match place tree path with
  | .ok (.vacant location) => .ok (putAt tree location (.file text))
  | .ok (.entry location (.file _)) => .ok (putAt tree location (.file text))
  | .ok (.entry _ _) => .error .isDirectory
  | .error error =>
    if path.text.toList.getLast? == some '/' &&
      tree.isDirectory (path.parent?.getD path) then .error .isDirectory
    else .error error

def makeDirectories (tree : FileTree) (here : Location) : List String → FileTree
  | [] => tree
  | name :: names =>
    match place tree (Path.ofSegments true (name :: here).reverse) with
    | .ok (.vacant location) =>
      makeDirectories (putAt tree location (.directory [])) (name :: here) names
    | _ => makeDirectories tree (name :: here) names

def makeDirectory (tree : FileTree) (path : Path) : FileTree :=
  makeDirectories tree [] ((Path.normalComponents path.components).filterMap
    Path.Component.name?)

def writeDeep (tree : FileTree) (path : Path) (text : Option String) :
    FileTree :=
  let ready := tree.makeDirectory (path.parent?.getD path)
  match ready.write path text with
  | .ok changed => changed
  | .error _ => ready

def writeLink (tree : FileTree) (path target : Path) : FileTree :=
  let ready := tree.makeDirectory (path.parent?.getD path)
  match ready.place path with
  | .ok (.vacant location) => ready.putAt location (.link target)
  | _ => ready

end ImportAtlas.FileTree
