import ImportAtlas.Barrel.NameSet
import ImportAtlas.Resolution.Resolver

/-!
# Barrels

A barrel passes on what it imports. A file is a barrel for a target only when
one of its exports really comes from that target, and then the names under
which it passes the target on are known.
-/

namespace ImportAtlas

/-- What a module carries: certain names, or, with no set given, everything. -/
abbrev Carried := Option NameSet

def Carried.covers (carried : Carried) (name : String) : Bool :=
  name == wholeName ||
    match carried with
    | none => true
    | some set => set.contains wholeName || set.contains name

/-- The names under which everything that is carried is passed on. -/
def Carried.wholeNames (carried : Carried) : List String :=
  match carried with
  | some set => if set.contains wholeName then [wholeName] else set.names
  | none => [wholeName]

def exportForwards (tree : FileTree) (resolver : Resolver)
    (candidate : FileModule) (target : Path) (carried : Carried)
    (fromTarget : List ImportRecord) (record : ExportRecord) : List String :=
  match record.source with
  | some source =>
    match resolver.resolve tree source candidate.path with
    | some found =>
      if !found.isFile target then []
      else if record.isWhole then carried.wholeNames
      else if carried.covers record.localName then [record.exportedName]
      else []
    | none => []
  | none =>
    if fromTarget.any fun taken => taken.bindings.any fun binding =>
        binding.localName == record.localName && carried.covers binding.imported
    then [record.exportedName]
    else []

/-- The names under which a candidate passes on what the target carries. -/
def forwardedNames (tree : FileTree) (resolver : Resolver)
    (candidate : FileModule) (target : Path) (carried : Carried) : NameSet :=
  let fromTarget := candidate.imports.filter fun record =>
    resolver.leadsTo tree candidate.path record target
  if fromTarget.isEmpty then NameSet.empty
  else NameSet.ofList
    (candidate.exports.flatMap (exportForwards tree resolver candidate target
      carried fromTarget))

def isBarrel (tree : FileTree) (resolver : Resolver) (candidate : FileModule)
    (target : Path) (carried : Carried) : Bool :=
  !(forwardedNames tree resolver candidate target carried).isEmpty

end ImportAtlas
