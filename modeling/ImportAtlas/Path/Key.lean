import ImportAtlas.Path.Normal

/-!
# File identity

Two paths mean the same file when their keys agree: separators are unified,
dots are folded, and the extension of a script is dropped.
-/

namespace ImportAtlas

/-- Extensions of script files, in the order in which they are tried. -/
def scriptExtensions : List String :=
  ["ts", "tsx", "js", "jsx", "mjs", "cjs", "mts", "cts", "vue", "svelte"]

def sameLetters (first second : String) : Bool :=
  first.toList.map Char.toLower == second.toList.map Char.toLower

def isScriptExtension (extension : String) : Bool :=
  scriptExtensions.any fun known => sameLetters known extension

namespace Path

def unifySeparators (text : String) : String :=
  String.ofList (text.toList.map fun c => if c = '\\' then '/' else c)

/-- The text by which files are compared. -/
def key (path : Path) : String :=
  let normal := normalize ⟨unifySeparators path.text⟩
  let stripped :=
    match normal.fileName? with
    | none => normal
    | some name =>
      match splitName name with
      | (stem, some extension) =>
        if isScriptExtension extension then normal.withFileName stem else normal
      | _ => normal
  unifySeparators stripped.text

def sameFile (first second : Path) : Bool :=
  first.key == second.key

end Path

def baseName (text : String) : String :=
  let name :=
    (text.toList.reverse.takeWhile fun c => c != '/' && c != '\\').reverse
  if name.all (· == '.') then String.ofList name
  else
    match Path.splitName (String.ofList name) with
    | (stem, some extension) =>
      if isScriptExtension extension then stem else String.ofList name
    | _ => String.ofList name

def isRelativeSpecifier (specifier : String) : Bool :=
  specifier.startsWith "./" || specifier.startsWith "../" || specifier == "." ||
    specifier == ".."

end ImportAtlas
