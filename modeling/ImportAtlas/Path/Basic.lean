/-!
# Paths

A path is kept as it was written. What it denotes is its list of components:
the segments between slashes, without empty segments and without dots, except
for a dot that opens a relative path. Paths are compared and ordered by their
components.
-/

namespace ImportAtlas

structure Path where
  text : String
  deriving DecidableEq, Repr, Inhabited

namespace Path

inductive Component where
  | root
  | current
  | parent
  | normal (name : String)
  deriving DecidableEq, Repr

/-- The pieces between slashes; there is always at least one. -/
def splitAtSlash : List Char → List (List Char)
  | [] => [[]]
  | '/' :: rest => [] :: splitAtSlash rest
  | c :: rest =>
    match splitAtSlash rest with
    | piece :: pieces => (c :: piece) :: pieces
    | [] => [[c]]

def Component.ofSegment? : String → Option Component
  | "" => none
  | "." => none
  | ".." => some .parent
  | name => some (.normal name)

def isAbsolute (path : Path) : Bool :=
  path.text.toList.head? == some '/'

def segments (path : Path) : List (String × Option Component) :=
  match (splitAtSlash path.text.toList).map String.ofList with
  | [] => []
  | first :: rest =>
    let others :=
      rest.map fun segment => (segment, Component.ofSegment? segment)
    if path.isAbsolute then others
    else if first = "." then (first, some .current) :: others
    else (first, Component.ofSegment? first) :: others

def components (path : Path) : List Component :=
  (if path.isAbsolute then [.root] else []) ++ path.segments.filterMap Prod.snd

def ofSegments (absolute : Bool) (segments : List String) : Path :=
  ⟨(if absolute then "/" else "") ++ "/".intercalate segments⟩

def Component.segment : Component → String
  | .root => ""
  | .current => "."
  | .parent => ".."
  | .normal name => name

def Component.name? : Component → Option String
  | .normal name => some name
  | _ => none

def ofComponents : List Component → Path
  | .root :: rest => ofSegments true (rest.map Component.segment)
  | components => ofSegments false (components.map Component.segment)

def same (first second : Path) : Bool :=
  first.components == second.components

/-! ## Order -/

def Component.rank : Component → Nat
  | .root => 0
  | .current => 1
  | .parent => 2
  | .normal _ => 3

def Component.compare (first second : Component) : Ordering :=
  match first, second with
  | .normal a, .normal b => Ord.compare a b
  | _, _ => Ord.compare first.rank second.rank

/-- Compares component by component, names by their characters; a path comes
after its own beginning. -/
def compareComponents : List Component → List Component → Ordering
  | [], [] => .eq
  | [], _ :: _ => .lt
  | _ :: _, [] => .gt
  | a :: as, b :: bs => (a.compare b).then (compareComponents as bs)

def compare (first second : Path) : Ordering :=
  compareComponents first.components second.components

def le (first second : Path) : Bool :=
  (first.compare second).isLE

def sort (paths : List Path) : List Path :=
  paths.mergeSort le

/-! ## Parts -/

def trimEnd (segments : List (String × Option Component)) :
    List (String × Option Component) :=
  (segments.reverse.dropWhile fun segment => segment.2.isNone).reverse

/-- The path without its last component; the root and the empty path have no
parent. -/
def parent? (path : Path) : Option Path :=
  match (trimEnd path.segments).reverse with
  | [] => none
  | _ :: before =>
    some (ofSegments path.isAbsolute ((trimEnd before.reverse).map Prod.fst))

def fileName? (path : Path) : Option String :=
  match path.components.getLast? with
  | some (.normal name) => some name
  | _ => none

/-- Splits a name at its last dot, unless that dot opens the name. -/
def splitName (name : String) : String × Option String :=
  let reversed := name.toList.reverse
  let after := reversed.takeWhile (· != '.')
  match reversed.drop after.length with
  | [] => (name, none)
  | _ :: [] => (name, none)
  | _ :: before =>
    (String.ofList before.reverse, some (String.ofList after.reverse))

def fileStem? (path : Path) : Option String :=
  path.fileName?.map fun name => (splitName name).1

def extension? (path : Path) : Option String :=
  path.fileName?.bind fun name => (splitName name).2

/-- Follows a second path from the first; an absolute path leads to itself. -/
def join (path next : Path) : Path :=
  if next.isAbsolute then next
  else if path.text.isEmpty || path.text.toList.getLast? == some '/' then
    ⟨path.text ++ next.text⟩
  else ⟨path.text ++ "/" ++ next.text⟩

def joinName (path : Path) (name : String) : Path :=
  path.join ⟨name⟩

def withFileName (path : Path) (name : String) : Path :=
  match path.fileName? with
  | some _ => ((path.parent?).getD path).joinName name
  | none => path.joinName name

def ancestors (path : Path) : List Path :=
  loop path path.components.length
where
  loop (path : Path) : Nat → List Path
    | 0 => [path]
    | count + 1 =>
      match path.parent? with
      | none => [path]
      | some above => path :: loop above count

def stripPrefix? (path directory : Path) : Option Path :=
  if directory.components.isPrefixOf path.components then
    let count :=
      directory.components.length - (if directory.isAbsolute then 1 else 0)
    let below := dropComponents count path.segments
    let shown :=
      (trimEnd (below.dropWhile fun segment => segment.2.isNone)).map Prod.fst
    some (ofSegments (path.isAbsolute && !directory.isAbsolute) shown)
  else none
where
  dropComponents : Nat → List (String × Option Component) →
    List (String × Option Component)
    | 0, segments => segments
    | _, [] => []
    | count + 1, (_, none) :: rest => dropComponents (count + 1) rest
    | count + 1, (_, some _) :: rest => dropComponents count rest

end Path

end ImportAtlas
