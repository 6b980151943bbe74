import ImportAtlas.Path.Basic

/-!
# File trees

A file system as a value: directories of files, symbolic links and further
directories. A path is followed name by name from the root. A double dot leads
to the directory that really lies above, a link leads to its target, and after
forty links a path is given up.
-/

namespace ImportAtlas

inductive Entry where
  /-- A file with its text, unless its bytes are no text. -/
  | file (text : Option String)
  | link (target : Path)
  | directory (entries : List (String × Entry))

inductive ReadError where
  | notFound
  | notDirectory
  | isDirectory
  | tooManyLinks
  | notUnicode
  deriving DecidableEq, Repr

def ReadError.message : ReadError → String
  | .notFound => "No such file or directory (os error 2)"
  | .notDirectory => "Not a directory (os error 20)"
  | .isDirectory => "Is a directory (os error 21)"
  | .tooManyLinks => "Too many levels of symbolic links (os error 40)"
  | .notUnicode => "stream did not contain valid UTF-8"

structure FileTree where
  entries : List (String × Entry)

namespace FileTree

def empty : FileTree :=
  ⟨[]⟩

/-- The names that lead from the root to an entry, the last one first. -/
abbrev Location := List String

def lookup? (name : String) : List (String × Entry) → Option Entry
  | [] => none
  | (other, entry) :: entries =>
    if other = name then some entry else lookup? name entries

def entryBelow? : List String → Entry → Option Entry
  | [], entry => some entry
  | name :: names, .directory entries =>
    (lookup? name entries).bind (entryBelow? names)
  | _ :: _, _ => none

def entryAt? (tree : FileTree) (location : Location) : Option Entry :=
  entryBelow? location.reverse (.directory tree.entries)

inductive Place where
  | entry (location : Location) (found : Entry)
  | vacant (location : Location)

def steps (path : Path) : List String :=
  let pieces := (Path.splitAtSlash path.text.toList).map String.ofList
  if path.isAbsolute then pieces.drop 1 else pieces

/--
Follows steps from an entry that is no link. `follow` goes on from a location
with the steps that a link adds.
-/
def walk (tree : FileTree)
    (follow : Location → List String → Except ReadError Place) :
    Location → Entry → List String → Except ReadError Place
  | here, entry, [] => .ok (.entry here entry)
  | here, .directory entries, step :: rest =>
    if step = "" ∨
      step = "." then walk tree follow here (.directory entries) rest
    else if step = ".." then
      match entryAt? tree here.tail with
      | some above => walk tree follow here.tail above rest
      | none => .error .notFound
    else
      match lookup? step entries with
      | none =>
        if rest.isEmpty then .ok (.vacant (step :: here)) else .error .notFound
      | some (.link target) =>
        follow (if target.isAbsolute then [] else here) (steps target ++ rest)
      | some entry => walk tree follow (step :: here) entry rest
  | _, _, _ :: _ => .error .notDirectory

def follow (tree : FileTree) :
    Nat → Location → List String → Except ReadError Place
  | 0, _, _ => .error .tooManyLinks
  | links + 1, here, path =>
    match entryAt? tree here with
    | some entry => walk tree (follow tree links) here entry path
    | none => .error .notFound

def linkLimit : Nat := 40

/-- Where a path leads; a relative path leads nowhere. -/
def place (tree : FileTree) (path : Path) : Except ReadError Place :=
  if path.isAbsolute then follow tree (linkLimit + 1) [] (steps path)
  else .error .notFound

def find (tree : FileTree) (path : Path) : Except ReadError Entry :=
  match place tree path with
  | .ok (.entry _ entry) => .ok entry
  | .ok (.vacant _) => .error .notFound
  | .error error => .error error

def isFile (tree : FileTree) (path : Path) : Bool :=
  match find tree path with
  | .ok (.file _) => true
  | _ => false

def isDirectory (tree : FileTree) (path : Path) : Bool :=
  match find tree path with
  | .ok (.directory _) => true
  | _ => false

def readText (tree : FileTree) (path : Path) : Except ReadError String :=
  match find tree path with
  | .ok (.file (some text)) => .ok text
  | .ok (.file none) => .error .notUnicode
  | .ok _ => .error .isDirectory
  | .error error => .error error

def realPath? (tree : FileTree) (path : Path) : Option Path :=
  match place tree path with
  | .ok (.entry location _) => some (Path.ofSegments true location.reverse)
  | _ => none

end FileTree

end ImportAtlas
