import ImportAtlas.Module.Record

/-!
# Options of a scan

What every scan can be told: which files to take, which styles of import to
report, and where specifiers and targets start.
-/

namespace ImportAtlas

structure StyleFilter where
  hidden : List ImportStyle := []
  deriving DecidableEq, Repr

namespace StyleFilter

def allows (filter : StyleFilter) (style : ImportStyle) : Bool :=
  !filter.hidden.contains style

def without (filter : StyleFilter) (style : ImportStyle) : StyleFilter :=
  ⟨style :: filter.hidden⟩

def allowed (filter : StyleFilter) : List ImportStyle :=
  ImportStyle.all.filter filter.allows

end StyleFilter

def defaultInclude : List String :=
  ["**/*.\x7bts,tsx,js,jsx,mjs,cjs,mts,cts,vue,svelte\x7d"]

def foreignDirectories : List String :=
  ["node_modules", "dist", "build", ".git", ".next", "coverage", ".turbo"]

def defaultExclude : List String :=
  foreignDirectories.flatMap fun name => ["**/" ++ name, "**/" ++ name ++ "/**"]

def defaultBatchSize : Nat := 20

def defaultStatsLimit : Nat := 10

structure ScanOptions where
  /-- Globs, seen from the root of the scan, of which a file has to match one.
  -/
  includes : List String := defaultInclude
  excludes : List String := defaultExclude
  styles : StyleFilter := {}
  batchSize : Nat := defaultBatchSize
  extensions : List String := scriptExtensions
  baseUrl : Option Path := none
  manifest : Option Path := none
  modulePath : Option Path := none
  workingDirectory : Path
  verbose : Bool := false
  statsLimit : Nat := defaultStatsLimit
  deriving DecidableEq, Repr

namespace ScanOptions

def withModulePath (options : ScanOptions) (path : Path) : ScanOptions :=
  { options with modulePath := some path }

def withBaseUrl (options : ScanOptions) (url : Path) : ScanOptions :=
  { options with baseUrl := some url }

def withManifest (options : ScanOptions) (manifest : Path) : ScanOptions :=
  { options with manifest := some manifest }

def withStyles (options : ScanOptions) (styles : StyleFilter) : ScanOptions :=
  { options with styles := styles }

def withBatchSize (options : ScanOptions) (size : Nat) : ScanOptions :=
  { options with batchSize := max size 1 }

def withWorkingDirectory (options : ScanOptions) (directory : Path) :
    ScanOptions :=
  { options with workingDirectory := directory }

/-- Takes other files than the usual ones; an empty list changes nothing. -/
def withIncludes (options : ScanOptions) (patterns : List String) :
    ScanOptions :=
  if patterns.isEmpty then options else { options with includes := patterns }

def withExcludes (options : ScanOptions) (patterns : List String) :
    ScanOptions :=
  { options with excludes := options.excludes ++ patterns }

def withVerbose (options : ScanOptions) (verbose : Bool) : ScanOptions :=
  { options with verbose := verbose }

def absolute (options : ScanOptions) (path : Path) : Path :=
  (options.workingDirectory.join path).normalize

end ScanOptions

end ImportAtlas
