import ImportAtlas.FileTree.Basic
import ImportAtlas.Manifest.BaseUrl
import ImportAtlas.Path.Normal

/-!
# The base directory of a scan

A base directory given by the user comes first, then a manifest given by the
user, then the nearest manifest at or above the scanned root. A manifest that
cannot be read gives no base directory.
-/

namespace ImportAtlas

def findManifest (tree : FileTree) (start : Path) : Option Path :=
  let directory := if tree.isFile start then start.parent? else some start
  directory.bind fun inside =>
    inside.ancestors.findSome? fun above =>
      (Manifest.fileNames.map above.joinName).find? tree.isFile

/-- The base directory that a manifest sets, seen from the directory of the
manifest. -/
def manifestBase (tree : FileTree) (manifest : Path) : Option Path :=
  match tree.readText manifest with
  | .error _ => none
  | .ok text =>
    (Manifest.Settings.read? text).bind fun settings =>
      settings.baseUrl.map fun url =>
        ((manifest.parent?.getD ⟨""⟩).join ⟨url⟩).normalize

def discoverBase (tree : FileTree) (baseUrl manifest : Option Path)
    (root workingDirectory : Path) : Option Path :=
  match baseUrl with
  | some url => some (workingDirectory.join url).normalize
  | none =>
    match manifest with
    | some path => manifestBase tree (workingDirectory.join path)
    | none => (findManifest tree root).bind (manifestBase tree)

end ImportAtlas
