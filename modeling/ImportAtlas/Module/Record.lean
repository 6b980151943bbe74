import ImportAtlas.Path.Key

/-!
# Import and export records

What one file says about other modules: which specifiers it imports, how, and
under which names, and which names it exports.
-/

namespace ImportAtlas

inductive ImportStyle where
  | static
  | dynamic
  | lazy
  | require
  deriving DecidableEq, Repr

namespace ImportStyle

def all : List ImportStyle :=
  [.static, .dynamic, .lazy, .require]

def text : ImportStyle → String
  | .static => "static"
  | .dynamic => "dynamic"
  | .lazy => "lazy"
  | .require => "require"

end ImportStyle

inductive ImportKind where
  | named
  | standard
  | whole
  deriving DecidableEq, Repr

def ImportKind.text : ImportKind → String
  | .named => "named"
  | .standard => "default"
  | .whole => "namespace"

def defaultName : String := "default"

def wholeName : String := "*"

/-- One name bound by an import: as the module exports it, and as the importing
file calls it. -/
structure Binding where
  imported : String
  localName : String
  deriving DecidableEq, Repr

namespace Binding

def defaultAs (localName : String) : Binding :=
  ⟨defaultName, localName⟩

def wholeAs (localName : String) : Binding :=
  ⟨wholeName, localName⟩

def named (name : String) : Binding :=
  ⟨name, name⟩

def isWhole (binding : Binding) : Bool :=
  binding.imported == wholeName

end Binding

/-- An import without bindings counts as an import of the default value. -/
def ImportKind.ofBindings (bindings : List Binding) : ImportKind :=
  if bindings.any Binding.isWhole then .whole
  else if bindings.all fun binding =>
    binding.imported == defaultName then .standard
  else .named

inductive Target where
  | file (path : Path)
  | package (name : String)
  deriving DecidableEq, Repr

namespace Target

def file? : Target → Option Path
  | .file path => some path
  | .package _ => none

def text : Target → String
  | .file path => path.text
  | .package name => name

def isFile (target : Target) (path : Path) : Bool :=
  match target with
  | .file found => found.sameFile path
  | .package _ => false

end Target

structure ImportRecord where
  specifier : String
  style : ImportStyle
  line : Nat
  column : Nat
  bindings : List Binding
  kind : ImportKind
  sourceText : String
  resolved : Option Target := none
  deriving DecidableEq, Repr

namespace ImportRecord

def boundNames (record : ImportRecord) : List String :=
  record.bindings.map Binding.localName

def importedNames (record : ImportRecord) : List String :=
  record.bindings.map Binding.imported

def isSideEffectOnly (record : ImportRecord) : Bool :=
  record.bindings.isEmpty

/-- Whether the module is bound as a whole, so that the names used of it are
unknown. -/
def bindsWhole (record : ImportRecord) : Bool :=
  record.kind == .whole || record.bindings.any Binding.isWhole

/-- Imports that agree in this are one import met twice. -/
def identity (record : ImportRecord) : String × Nat × ImportStyle :=
  (record.specifier, record.line, record.style)

end ImportRecord

inductive ExportKind where
  | named
  | standard
  deriving DecidableEq, Repr

def ExportKind.text : ExportKind → String
  | .named => "named"
  | .standard => "default"

def ExportKind.ofName (exported : String) : ExportKind :=
  if exported == defaultName then .standard else .named

structure ExportRecord where
  exportedName : String
  localName : String
  kind : ExportKind
  source : Option String := none
  deriving DecidableEq, Repr

def ExportRecord.isWhole (record : ExportRecord) : Bool :=
  record.exportedName == wholeName

structure FileModule where
  path : Path
  imports : List ImportRecord
  exports : List ExportRecord
  deriving Repr

def FileModule.passesOn (module : FileModule) : Bool :=
  module.exports.any fun record => record.source.isSome

structure Importer where
  file : Path
  imports : List ImportRecord
  deriving Repr

def addImports (known added : List ImportRecord) : List ImportRecord :=
  added.foldl
    (fun imports record =>
      if imports.any fun other =>
        other.identity == record.identity then imports else imports ++ [record])
    known

def Importer.merge (importer : Importer) (added : List ImportRecord) :
    Importer :=
  { importer with imports := addImports importer.imports added }

end ImportAtlas
