/-!
# Sets of names

A set of names as a list in increasing order without repetitions.
-/

namespace ImportAtlas

structure NameSet where
  names : List String
  deriving DecidableEq, Repr

namespace NameSet

def empty : NameSet :=
  ⟨[]⟩

def insertSorted (name : String) : List String → List String
  | [] => [name]
  | other :: others =>
    if name = other then other :: others
    else if name < other then name :: other :: others
    else other :: insertSorted name others

def insert (set : NameSet) (name : String) : NameSet :=
  ⟨insertSorted name set.names⟩

def insertAll (set : NameSet) (names : List String) : NameSet :=
  names.foldl insert set

def ofList (names : List String) : NameSet :=
  empty.insertAll names

def contains (set : NameSet) (name : String) : Bool :=
  set.names.contains name

def isEmpty (set : NameSet) : Bool :=
  set.names.isEmpty

end NameSet

end ImportAtlas
