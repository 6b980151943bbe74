import ImportAtlas.FileTree.Basic
import ImportAtlas.Module.Record

/-!
# From specifiers to files

A specifier is looked up as a candidate path: as it stands, with each extension
in turn, and as a directory with an index file. What leads to no file is a
package, unless the specifier is relative or absolute.
-/

namespace ImportAtlas

structure Resolver where
  /-- Where specifiers start that are neither relative nor absolute. -/
  baseDirectory : Option Path
  extensions : List String
  deriving DecidableEq, Repr

namespace Resolver

def new (baseDirectory : Option Path) : Resolver :=
  ⟨baseDirectory.map Path.normalize, scriptExtensions⟩

def trimDots (extension : String) : String :=
  String.ofList (extension.toList.dropWhile (· == '.'))

def withExtensions (resolver : Resolver) (extensions : List String) :
    Resolver :=
  { resolver with extensions := extensions.map trimDots }

def hasKnownExtension (resolver : Resolver) (path : Path) : Bool :=
  match path.extension? with
  | none => false
  | some extension =>
    resolver.extensions.any fun known => sameLetters known extension

def withExtension (path : Path) (extension : String) : Path :=
  ⟨path.text ++ "." ++ extension⟩

def indexName (extension : String) : String :=
  "index." ++ extension

def probeNormal (tree : FileTree) (resolver : Resolver) (candidate : Path) :
    Option Path :=
  if resolver.hasKnownExtension candidate && tree.isFile candidate then
    some candidate
  else
    match (resolver.extensions.map (withExtension candidate)).find? tree.isFile
      with
    | some found => some found
    | none =>
      if tree.isDirectory candidate then
        (resolver.extensions.map fun extension =>
          candidate.joinName (indexName extension)).find? tree.isFile
      else none

def probe (tree : FileTree) (resolver : Resolver) (candidate : Path) :
    Option Path :=
  probeNormal tree resolver candidate.normalize

def resolve (tree : FileTree) (resolver : Resolver) (specifier : String)
    (fromFile : Path) : Option Target :=
  let directory := fromFile.parent?.getD ⟨""⟩
  let probeFrom (start : Path) : Option Path :=
    probe tree resolver (start.join ⟨specifier⟩)
  if isRelativeSpecifier specifier then (probeFrom directory).map .file
  else if Path.isAbsolute ⟨specifier⟩ then
    (probe tree resolver ⟨specifier⟩).map .file
  else if !specifier.toList.contains '/' then some (.package specifier)
  else
    match resolver.baseDirectory.bind probeFrom with
    | some found => some (.file found)
    | none =>
      match probeFrom directory with
      | some found => some (.file found)
      | none => some (.package specifier)

/-- A target named by the user; a path with a known extension is taken as it
is. -/
def resolveTarget (tree : FileTree) (resolver : Resolver)
    (target workingDirectory : Path) : Path :=
  let normal := (workingDirectory.join target).normalize
  if resolver.hasKnownExtension normal then normal
  else (probe tree resolver normal).getD normal

def siblingIndexes (tree : FileTree) (resolver : Resolver) (file : Path) :
    List Path :=
  match file.parent? with
  | none => []
  | some directory =>
    (resolver.extensions.map fun extension =>
        directory.joinName (indexName extension)).filter fun path =>
      tree.isFile path && !path.sameFile file

/-- What an import leads to, resolved now unless that was done before. -/
def targetOf (tree : FileTree) (resolver : Resolver) (file : Path)
    (record : ImportRecord) : Option Target :=
  match record.resolved with
  | some target => some target
  | none => resolver.resolve tree record.specifier file

def leadsTo (tree : FileTree) (resolver : Resolver) (file : Path)
    (record : ImportRecord) (target : Path) : Bool :=
  match resolver.targetOf tree file record with
  | some found => found.isFile target
  | none => false

end Resolver

end ImportAtlas
