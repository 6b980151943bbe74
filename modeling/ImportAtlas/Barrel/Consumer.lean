import ImportAtlas.Barrel.Forwarding

/-!
# Consumers of a barrel

The files that import, through a barrel, one of the names that it passes on.
-/

namespace ImportAtlas

structure VisitedBarrels where
  keys : List String
  deriving DecidableEq, Repr

namespace VisitedBarrels

def empty : VisitedBarrels :=
  ⟨[]⟩

def contains (visited : VisitedBarrels) (barrel : Path) : Bool :=
  visited.keys.contains barrel.key

def insert (visited : VisitedBarrels) (barrel : Path) : VisitedBarrels :=
  if visited.contains barrel then visited else ⟨barrel.key :: visited.keys⟩

def size (visited : VisitedBarrels) : Nat :=
  visited.keys.length

end VisitedBarrels

/-- Whether an import may use one of the names; an import of nothing or of
everything always may. -/
def usesAny (record : ImportRecord) (names : NameSet) : Bool :=
  record.isSideEffectOnly || record.bindsWhole || names.contains wholeName ||
    record.importedNames.any names.contains

def barrelImports (tree : FileTree) (resolver : Resolver) (barrel : Path)
    (names : NameSet) (module : FileModule) : List ImportRecord :=
  module.imports.filter fun record =>
    resolver.leadsTo tree module.path record barrel && usesAny record names

/-- All importers of the names of a barrel but the barrel itself, in the order
of the modules. -/
def barrelConsumers (tree : FileTree) (resolver : Resolver) (barrel : Path)
    (names : NameSet) (modules : List FileModule) : List Importer :=
  modules.filterMap fun module =>
    if module.path.sameFile barrel then none
    else
      match barrelImports tree resolver barrel names module with
      | [] => none
      | found => some ⟨module.path, found⟩

def followBarrel (tree : FileTree) (resolver : Resolver) (barrel : Path)
    (names : NameSet) (modules : List FileModule) (visited : VisitedBarrels) :
    List Importer × VisitedBarrels :=
  if visited.contains barrel then ([], visited)
  else (barrelConsumers tree resolver barrel names modules,
    visited.insert barrel)

end ImportAtlas
