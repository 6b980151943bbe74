import ImportAtlas.FileTree.Basic
import ImportAtlas.Grammar.Script
import ImportAtlas.Module.Item
import ImportAtlas.Module.ScriptBlock

/-!
# Analysis of one file

From the text of a file to its import and export records. The extension of the
file tells its language. A file with a syntax error has no records at all.
-/

namespace ImportAtlas

open Grammar (Dialect)

inductive SourceLanguage where
  | javaScript
  | jsx
  | typeScript
  | tsx
  | vue
  | svelte
  deriving DecidableEq, Repr

namespace SourceLanguage

def name : SourceLanguage → String
  | .javaScript => "JavaScript"
  | .jsx => "Jsx"
  | .typeScript => "TypeScript"
  | .tsx => "Tsx"
  | .vue => "Vue"
  | .svelte => "Svelte"

def ofLowerExtension? : String → Option SourceLanguage
  | "js" | "mjs" | "cjs" => some .javaScript
  | "jsx" => some .jsx
  | "ts" | "mts" | "cts" => some .typeScript
  | "tsx" => some .tsx
  | "vue" => some .vue
  | "svelte" => some .svelte
  | _ => none

def ofExtension? (extension : String) : Option SourceLanguage :=
  ofLowerExtension? (String.ofList (extension.toList.map Char.toLower))

def ofPath? (path : Path) : Option SourceLanguage :=
  path.extension?.bind ofExtension?

def isMarkup : SourceLanguage → Bool
  | .vue | .svelte => true
  | _ => false

def dialect : SourceLanguage → Dialect
  | .typeScript => .typeScript
  | .tsx => .tsx
  | _ => .javaScript

end SourceLanguage

inductive AnalysisError where
  | unreadable (cause : ReadError)
  | malformed (path : Path) (line column : Nat)
  | unsupported (extension : String)
  deriving DecidableEq, Repr

def AnalysisError.message : AnalysisError → String
  | .unreadable cause => "Failed to read file: " ++ cause.message
  | .malformed path line column =>
    "Failed to parse " ++ path.text ++ " at " ++ toString line ++ ":" ++
      toString column
  | .unsupported extension => "Unsupported file type: " ++ extension

def scriptItems (dialect : Dialect) (lineOffset : Nat) (path : Path)
    (text : List Char) :
    Except AnalysisError (List ModuleItem) :=
  match Grammar.readScript dialect text with
  | .ok trees => .ok (ModuleItem.ofTrees lineOffset [] trees)
  | .error place =>
    .error (.malformed path (place.line + 1 + lineOffset) (place.column + 1))

namespace ModuleItem

def record (style : ImportStyle) (site : ImportSite) : ImportRecord where
  specifier := site.specifier
  style := style
  line := site.line
  column := site.column
  bindings := site.bindings
  kind := site.kind
  sourceText := site.text

def import? : ModuleItem → Option ImportRecord
  | .staticImport site => some (record .static site)
  | .dynamicImport site => some (record .dynamic site)
  | .lazyImport site => some (record .lazy site)
  | .require site => some (record .require site)
  | .reExport site _ => some (record .static site)
  | .reExportAll site _ => some (record .static site)
  | .exportDeclaration _ | .exportClause _ | .exportDefault _ => none

def exports : ModuleItem → List ExportRecord
  | .exportDeclaration names => names.map fun name => ⟨name, name, .named, none⟩
  | .exportClause names =>
    names.map fun (localName, exported) =>
      ⟨exported, localName, .ofName exported, none⟩
  | .exportDefault localName =>
    [⟨defaultName, localName.getD defaultName, .standard, none⟩]
  | .reExport site names =>
    names.map fun (name, exported) =>
      ⟨exported, name, .ofName exported, some site.specifier⟩
  | .reExportAll site newName =>
    [⟨newName.getD wholeName, wholeName, .named, some site.specifier⟩]
  | .staticImport _ | .dynamicImport _ | .lazyImport _ | .require _ => []

end ModuleItem

def FileModule.ofItems (path : Path) (items : List ModuleItem) :
    FileModule where
  path := path
  imports := items.filterMap ModuleItem.import?
  exports := items.flatMap ModuleItem.exports

/-- The items of a source text; in markup, of its script blocks one after the
other. -/
def sourceItems (language : SourceLanguage) (path : Path) (text : List Char) :
    Except AnalysisError (List ModuleItem) :=
  if language.isMarkup then do
    let blocks ← (ScriptBlock.all text).mapM fun block =>
      scriptItems block.dialect block.lineOffset path block.body
    return blocks.flatten
  else scriptItems language.dialect 0 path text

def analyzeSource (language : SourceLanguage) (path : Path) (text : String) :
    Except AnalysisError FileModule :=
  (sourceItems language path text.toList).map (FileModule.ofItems path)

/-- Reads and analyzes a file; its language is looked at before its text. -/
def analyzeFile (tree : FileTree) (path : Path) :
    Except AnalysisError FileModule :=
  match SourceLanguage.ofPath? path with
  | none => .error (.unsupported (path.extension?.getD ""))
  | some language =>
    match tree.readText path with
    | .error cause => .error (.unreadable cause)
    | .ok text => analyzeSource language path text

end ImportAtlas
