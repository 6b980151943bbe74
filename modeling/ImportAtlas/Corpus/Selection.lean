import ImportAtlas.FileTree.Basic
import ImportAtlas.Glob.Match
import ImportAtlas.Path.Key

/-!
# Selecting files

The files below a root that match an include glob. What matches an exclude glob
is left out together with everything below it. Links are not followed below the
root.
-/

namespace ImportAtlas

inductive ScanError where
  | rootNotFound (root : Path)
  | invalidGlob (error : Glob.Error)
  deriving DecidableEq, Repr

def ScanError.causes : ScanError → List String
  | .rootNotFound root => ["Search root does not exist: " ++ root.text]
  | .invalidGlob error =>
    ["Invalid glob pattern '" ++ error.pattern ++ "': " ++ error.cause,
      error.cause]

def ScanError.message : ScanError → String
  | .rootNotFound root => "Search root does not exist: " ++ root.text
  | .invalidGlob error =>
    "Invalid glob pattern '" ++ error.pattern ++ "': " ++ error.cause

def relativeText (names : List String) : String :=
  Path.unifySeparators ("/".intercalate names)

mutual

/-- The files at or below an entry that is not excluded, by their names from
the root on. -/
def selectEntry (included excluded : String → Bool) (names : List String) :
    Entry → List (List String)
  | .file _ => if included (relativeText names) then [names] else []
  | .link _ => []
  | .directory entries => selectEntries included excluded names entries

def selectEntries (included excluded : String → Bool) (above : List String) :
    List (String × Entry) → List (List String)
  | [] => []
  | (name, entry) :: entries =>
    let names := above ++ [name]
    (if excluded (relativeText names) then []
      else selectEntry included excluded names entry) ++
      selectEntries included excluded above entries

end

/-- All files below a root that the globs select, sorted; a root that is a file
is selected as it is. -/
def findFiles (tree : FileTree) (root : Path)
    (includes excludes : List String) : Except ScanError (List Path) :=
  match tree.find root with
  | .error _ => .error (.rootNotFound root)
  | .ok entry =>
    match Glob.readAll includes with
    | .error error => .error (.invalidGlob error)
    | .ok included =>
      match Glob.readAll excludes with
      | .error error => .error (.invalidGlob error)
      | .ok excluded =>
        match entry with
        | .directory entries =>
          let selected :=
            selectEntries (Glob.acceptsAny included) (Glob.acceptsAny excluded)
              [] entries
          .ok (Path.sort (selected.map fun names =>
            names.foldl Path.joinName root))
        | _ => .ok [root]

end ImportAtlas
