import ImportAtlas.Barrel.Forwarding
import ImportAtlas.Proofs.LoadedCorpus

/-!
# What the items of a file pass on

A file passes on names of a target by exports of two kinds: those that name the
target themselves, and those of a local name that an import of the target
binds.  Barrels are told from the records of the items, where an export that
names its module leaves an import record as well.  This file says which names
the records give, and where they give more than the items do.
-/

namespace ImportAtlas

/-! ## Sets of names -/

namespace NameSet

private theorem mem_insertSorted {name added : String} {names : List String} :
    name ∈ insertSorted added names ↔ name = added ∨ name ∈ names := by
  induction names with
  | nil => simp [insertSorted]
  | cons other others ih =>
      rw [insertSorted]
      split
      · rename_i hsame
        simp [hsame]
      · split
        · simp
        · simp only [List.mem_cons, ih]
          exact or_left_comm

private theorem mem_insertAll {set : NameSet} {names : List String}
    {name : String} :
    name ∈ (set.insertAll names).names ↔ name ∈ set.names ∨ name ∈ names := by
  induction names generalizing set with
  | nil => simp [insertAll]
  | cons first names ih =>
      have hstep : set.insertAll (first :: names) =
        (set.insert first).insertAll names := rfl
      rw [hstep, ih, List.mem_cons, ← or_assoc, insert, mem_insertSorted,
        or_comm (a := name = first)]

private theorem mem_ofList {names : List String} {name : String} :
    name ∈ (ofList names).names ↔ name ∈ names := by
  simp [ofList, mem_insertAll, empty]

end NameSet

/-! ## Items and their records -/

namespace ModuleItem

def bindingSite? : ModuleItem → Option ImportSite
  | .staticImport site | .dynamicImport site | .lazyImport site
  | .require site => some site
  | _ => none

/-- Where an item passes on another module; it binds none of its names. -/
def passingSite? : ModuleItem → Option ImportSite
  | .reExport site _ | .reExportAll site _ => some site
  | _ => none

def passedNames : ModuleItem → List String
  | .reExport _ names => names.map Prod.snd
  | .reExportAll _ newName => [newName.getD wholeName]
  | _ => []

def localExports : ModuleItem → List (Option String × String)
  | .exportDeclaration names => names.map fun name => (some name, name)
  | .exportClause names =>
    names.map fun (localName, exported) => (some localName, exported)
  | .exportDefault localName => [(localName, defaultName)]
  | _ => []

def site? (item : ModuleItem) : Option ImportSite :=
  item.bindingSite?.or item.passingSite?

theorem mem_site? {item : ModuleItem} {site : ImportSite} :
    site ∈ item.site? ↔
      site ∈ item.bindingSite? ∨ site ∈ item.passingSite? := by
  cases item <;> simp [site?, bindingSite?, passingSite?]

theorem exists_passing_export_iff {item : ModuleItem} {source name : String} :
    (∃ made ∈ item.exports, made.source = some source ∧
      made.exportedName = name) ↔
      ∃ site ∈ item.passingSite?, site.specifier = source ∧
        name ∈ item.passedNames := by
  cases item <;> simp [exports, passingSite?, passedNames, and_comm, eq_comm]

theorem exists_local_export_iff {item : ModuleItem} {localName name : String} :
    (∃ made ∈ item.exports, made.source = none ∧ made.localName = localName ∧
      made.exportedName = name) ↔
      ∃ exported ∈ item.localExports, exported.1.getD defaultName = localName ∧
        exported.2 = name := by
  cases item <;> simp [exports, localExports]

end ModuleItem

/-! ## Extracted modules -/

def Resolver.reaches (tree : FileTree) (resolver : Resolver)
    (file target : Path) (specifier : String) : Bool :=
  (resolver.resolve tree specifier file).any fun found => found.isFile target

namespace FileModule

/-- A module that holds the records of the items; its imports may have been
resolved since. -/
structure Extracted (tree : FileTree) (resolver : Resolver)
    (items : List ModuleItem) (module : FileModule) :
    Prop where
  imports :
    (module.imports.map fun record => { record with resolved := none }) =
    items.filterMap ModuleItem.import?
  resolved : ∀ record ∈ module.imports,
    record.resolved = none ∨
    record.resolved = resolver.resolve tree record.specifier module.path
  exports : module.exports = items.flatMap ModuleItem.exports

theorem unresolved_imports_ofItems (path : Path) (items : List ModuleItem) :
    ((ofItems path items).imports.map fun record =>
      { record with resolved := none }) =
      items.filterMap ModuleItem.import? := by
  rw [ofItems, List.map_filterMap]
  refine List.filterMap_congr fun item _ => ?_
  cases item <;> rfl

private theorem extracted_ofItems (tree : FileTree) (resolver : Resolver)
    (path : Path) (items : List ModuleItem) :
    (ofItems path items).Extracted tree resolver items where
  imports := unresolved_imports_ofItems path items
  resolved := by
    intro record hrecord
    obtain ⟨item, -, hitem⟩ := List.mem_filterMap.1 hrecord
    cases item <;> cases hitem <;> exact .inl rfl
  exports := rfl

theorem extracted_resolveImports (tree : FileTree) (resolver : Resolver)
    (path : Path) (items : List ModuleItem) :
    (Corpus.resolveImports tree resolver (ofItems path items)).Extracted tree
      resolver items where
  imports := by
    rw [← unresolved_imports_ofItems path items, Corpus.resolveImports,
      List.map_map]
    rfl
  resolved record hrecord :=
    .inr (Corpus.resolveImports_resolved tree resolver (ofItems path items)
      record hrecord)
  exports := rfl

namespace Extracted

variable {tree : FileTree} {resolver : Resolver} {items : List ModuleItem}
    {module : FileModule}

private theorem leadsTo_eq (h : module.Extracted tree resolver items)
    {record : ImportRecord} (hrecord : record ∈ module.imports)
    (target : Path) :
    resolver.leadsTo tree module.path record target =
      resolver.reaches tree module.path target record.specifier := by
  have htarget : resolver.targetOf tree module.path record =
      resolver.resolve tree record.specifier module.path := by
    unfold Resolver.targetOf
    rcases h.resolved record hrecord with hnone | hsome
    · rw [hnone]
    · cases hfound : resolver.resolve tree record.specifier module.path <;>
        simp [hsome, hfound]
  rw [Resolver.leadsTo, htarget, Resolver.reaches]
  cases resolver.resolve tree record.specifier module.path <;> rfl

private theorem map_imports (h : module.Extracted tree resolver items) :
    (module.imports.map fun record => (record.specifier, record.bindings)) =
      (items.filterMap ModuleItem.site?).map fun site =>
        (site.specifier, site.bindings) := by
  have himports :=
    congrArg (List.map fun record => (record.specifier, record.bindings))
      h.imports
  rw [List.map_map, List.map_filterMap] at himports
  rw [List.map_filterMap]
  refine himports.trans (List.filterMap_congr fun item _ => ?_)
  cases item <;> rfl

theorem exists_import_iff (h : module.Extracted tree resolver items)
    {target : Path} {p : List Binding → Prop} :
    (∃ record ∈ module.imports, resolver.leadsTo tree module.path record
      target = true ∧ p record.bindings) ↔
      ∃ site ∈ items.filterMap ModuleItem.site?,
        resolver.reaches tree module.path target site.specifier = true ∧
        p site.bindings := by
  calc
    _ ↔ ∃ record ∈ module.imports,
          resolver.reaches tree module.path target record.specifier = true ∧
          p record.bindings :=
      exists_congr fun record =>
        and_congr_right fun hrecord => by rw [h.leadsTo_eq hrecord]
    _ ↔
          ∃ taken ∈ module.imports.map fun record =>
            (record.specifier, record.bindings),
          resolver.reaches tree module.path target taken.1 = true ∧
          p taken.2 := by simp
    _ ↔
          ∃ taken ∈ (items.filterMap ModuleItem.site?).map fun site =>
            (site.specifier, site.bindings),
          resolver.reaches tree module.path target taken.1 = true ∧
          p taken.2 := by rw [h.map_imports]
    _ ↔ _ := by simp

theorem exists_export_iff (h : module.Extracted tree resolver items)
    {p : ExportRecord → Prop} :
    (∃ made ∈ module.exports, p made) ↔
      ∃ item ∈ items, ∃ made ∈ item.exports, p made := by
  simp only [h.exports, List.mem_flatMap]
  constructor
  · rintro ⟨made, ⟨item, hitem, hmade⟩, hp⟩
    exact ⟨item, hitem, made, hmade, hp⟩
  · rintro ⟨item, hitem, made, hmade, hp⟩
    exact ⟨made, ⟨item, hitem, hmade⟩, hp⟩

end Extracted

end FileModule

/-! ## Forwarded names -/

section Records

variable {tree : FileTree} {resolver : Resolver} {candidate : FileModule}
    {target : Path} {carried : Carried}
  {fromTarget : List ImportRecord} {made : ExportRecord} {name : String}

theorem exportForwards_of_source {source : String}
    (h : made.source = some source) :
    exportForwards tree resolver candidate target carried fromTarget made =
      if resolver.reaches tree candidate.path target source then
        if made.isWhole then carried.wholeNames
        else if carried.covers made.localName then [made.exportedName] else []
      else [] := by
  cases hfound : resolver.resolve tree source candidate.path with
  | none => simp [exportForwards, Resolver.reaches, h, hfound]
  | some found =>
    cases hfile : found.isFile target <;>
      simp [exportForwards, Resolver.reaches, h, hfound, hfile]

theorem mem_exportForwards_none_of_source {source : String}
    (h : made.source = some source) :
    name ∈ exportForwards tree resolver candidate target none fromTarget made ↔
      resolver.reaches tree candidate.path target source = true ∧
      name = made.exportedName := by
  have hnames : (if made.isWhole then Carried.wholeNames none
      else if Carried.covers none made.localName then [made.exportedName]
      else []) = [made.exportedName] := by
    cases hwhole : made.isWhole with
    | true =>
        have hname : made.exportedName = wholeName := by
          simpa [ExportRecord.isWhole] using hwhole
        simp [Carried.wholeNames, hname]
    | false => simp [Carried.covers]
  rw [exportForwards_of_source h, hnames]
  split <;> simp_all

theorem mem_exportForwards_of_local (h : made.source = none) :
    name ∈ exportForwards tree resolver candidate target carried
      fromTarget made ↔
      name = made.exportedName ∧
      ∃ taken ∈ fromTarget, ∃ binding ∈ taken.bindings,
        binding.localName = made.localName ∧
        carried.covers binding.imported = true := by
  simp [exportForwards, h, and_comm]

theorem mem_forwardedNames :
    name ∈ (forwardedNames tree resolver candidate target carried).names ↔
      (∃ record ∈ candidate.imports,
        resolver.leadsTo tree candidate.path record target = true) ∧
        ∃ made ∈ candidate.exports,
          name ∈ exportForwards tree resolver candidate target carried
          (candidate.imports.filter fun record =>
            resolver.leadsTo tree candidate.path record target) made := by
  unfold forwardedNames
  simp only []
  split
  · rename_i hnone
    simp_all [NameSet.empty]
  · rename_i hsome
    simp_all [NameSet.mem_ofList]

end Records

/-! ## Items -/

section Items

variable (tree : FileTree) (resolver : Resolver) (path target : Path)
    (items : List ModuleItem)

def NamedAt (sites : List ImportSite) (localName : String) : Prop :=
  ∃ site ∈ sites, resolver.reaches tree path target site.specifier = true ∧
    ∃ binding ∈ site.bindings, binding.localName = localName

def PassesTargetOn (name : String) : Prop :=
  ∃ item ∈ items,
    (∃ site ∈ item.passingSite?,
      resolver.reaches tree path target site.specifier = true) ∧
    name ∈ item.passedNames

def ExportsImported (name : String) : Prop :=
  ∃ item ∈ items, ∃ exported ∈ item.localExports, exported.2 = name ∧
    ∃ localName ∈ exported.1, NamedAt tree resolver path target
      (items.filterMap ModuleItem.bindingSite?) localName

/--
Whether the name is exported from a local name that only occurs where an item
passes the target on, or without a local name while `default` is bound.
-/
def MeetsByName (name : String) : Prop :=
  ∃ item ∈ items, ∃ exported ∈ item.localExports, exported.2 = name ∧
    (NamedAt tree resolver path target (items.filterMap ModuleItem.passingSite?)
      (exported.1.getD defaultName) ∨
      exported.1 = none ∧
        NamedAt tree resolver path target
          (items.filterMap ModuleItem.bindingSite?) defaultName)

instance (sites : List ImportSite) (localName : String) :
    Decidable (NamedAt tree resolver path target sites localName) :=
  inferInstanceAs (Decidable (∃ site ∈ sites, _ ∧
    ∃ binding ∈ site.bindings, binding.localName = localName))

instance (name : String) :
    Decidable (PassesTargetOn tree resolver path target items name) :=
  inferInstanceAs (Decidable (∃ item ∈ items, (∃ site ∈ item.passingSite?, _) ∧
    name ∈ item.passedNames))

instance (name : String) :
    Decidable (ExportsImported tree resolver path target items name) :=
  inferInstanceAs (Decidable (∃ item ∈ items, ∃ exported ∈ item.localExports,
    exported.2 = name ∧
    ∃ localName ∈ exported.1, NamedAt tree resolver path target _ localName))

end Items

section Names

variable {tree : FileTree} {resolver : Resolver} {items : List ModuleItem}
    {module : FileModule} {target : Path}
  {name : String}

private theorem namedAt_sites_iff {path : Path} {localName : String} :
    NamedAt tree resolver path target (items.filterMap ModuleItem.site?)
      localName ↔
      NamedAt tree resolver path target
        (items.filterMap ModuleItem.bindingSite?) localName ∨
        NamedAt tree resolver path target
          (items.filterMap ModuleItem.passingSite?) localName := by
  have hsite {site : ImportSite} : site ∈ items.filterMap ModuleItem.site? ↔
      site ∈ items.filterMap ModuleItem.bindingSite? ∨
      site ∈ items.filterMap ModuleItem.passingSite? := by
    simp only [List.mem_filterMap, ← exists_or, ← and_or_left]
    exact exists_congr fun item => and_congr_right fun _ => ModuleItem.mem_site?
  simp only [NamedAt, hsite, or_and_right, exists_or]

theorem FileModule.Extracted.namedAt_iff
    (h : module.Extracted tree resolver items) {localName : String} :
    NamedAt tree resolver module.path target (items.filterMap ModuleItem.site?)
      localName ↔
      ∃ record ∈ module.imports,
        resolver.leadsTo tree module.path record target = true ∧
        ∃ binding ∈ record.bindings, binding.localName = localName :=
  (h.exists_import_iff (p :=
    fun bindings => ∃ binding ∈ bindings, binding.localName = localName)).symm

private theorem FileModule.Extracted.mem_forwardedNames_iff
    (h : module.Extracted tree resolver items) :
    name ∈ (forwardedNames tree resolver module target none).names ↔
      PassesTargetOn tree resolver module.path target items name ∨
        ∃ item ∈ items, ∃ exported ∈ item.localExports, exported.2 = name ∧
          NamedAt tree resolver module.path target
            (items.filterMap ModuleItem.site?)
            (exported.1.getD defaultName) := by
  rw [mem_forwardedNames]
  constructor
  · rintro ⟨-, hexport⟩
    obtain ⟨item, hitem, made, hmade, hname⟩ := h.exists_export_iff.1 hexport
    cases hsource : made.source with
    | some source =>
        obtain ⟨hreaches, rfl⟩ :=
          (mem_exportForwards_none_of_source hsource).1 hname
        obtain ⟨site, hsite, rfl, hpassed⟩ :=
          ModuleItem.exists_passing_export_iff.1 ⟨made, hmade, hsource, rfl⟩
        exact .inl ⟨item, hitem, ⟨site, hsite, hreaches⟩, hpassed⟩
    | none =>
        obtain ⟨rfl, taken, htaken, binding, hbinding, hlocal, -⟩ :=
          (mem_exportForwards_of_local hsource).1 hname
        obtain ⟨himport, hleads⟩ := List.mem_filter.1 htaken
        obtain ⟨exported, hexported, hlocalName, hname⟩ :=
          ModuleItem.exists_local_export_iff.1 ⟨made, hmade, hsource, rfl, rfl⟩
        refine .inr ⟨item, hitem, exported, hexported, hname, ?_⟩
        rw [hlocalName]
        exact h.namedAt_iff.2 ⟨taken, himport, hleads, binding,
          hbinding, hlocal⟩
  · rintro (⟨item, hitem, ⟨site, hsite, hreaches⟩, hpassed⟩
      | ⟨item, hitem, exported, hexported, rfl, hnamed⟩)
    · obtain ⟨record, hrecord, hleads, -⟩ := (h.exists_import_iff (p :=
        fun _ => True)).2 ⟨site, List.mem_filterMap.2 ⟨item, hitem,
        ModuleItem.mem_site?.2 (.inr hsite)⟩, hreaches, trivial⟩
      obtain ⟨made, hmade, hsource, hname⟩ :=
        ModuleItem.exists_passing_export_iff.2 ⟨site, hsite, rfl, hpassed⟩
      exact ⟨⟨record, hrecord, hleads⟩, h.exists_export_iff.2
        ⟨item, hitem, made, hmade, (mem_exportForwards_none_of_source hsource).2
          ⟨hreaches, hname.symm⟩⟩⟩
    · obtain ⟨record, hrecord, hleads, binding, hbinding, hlocal⟩ :=
        h.namedAt_iff.1 hnamed
      obtain ⟨made, hmade, hsource, hlocalName, hname⟩ :=
        ModuleItem.exists_local_export_iff.2 ⟨exported, hexported, rfl, rfl⟩
      refine ⟨⟨record, hrecord, hleads⟩,
        h.exists_export_iff.2 ⟨item, hitem, made, hmade, ?_⟩⟩
      refine (mem_exportForwards_of_local hsource).2 ⟨hname.symm, record, ?_,
        binding, hbinding, ?_⟩
      · exact List.mem_filter.2 ⟨hrecord, hleads⟩
      · exact ⟨hlocal.trans hlocalName.symm, by simp [Carried.covers]⟩

/--
The names under which a file is found to pass on a target are exactly those
that its items pass on or export from an import of the target, and those that
merely meet a name of an item that passes it on.
-/
theorem forwardedNames_iff_forwards_or_meets (tree : FileTree)
    (resolver : Resolver) (path target : Path) (items : List ModuleItem)
    (name : String) :
    name ∈ (forwardedNames tree resolver (.ofItems path items)
      target none).names ↔
      (PassesTargetOn tree resolver path target items name ∨
        ExportsImported tree resolver path target items name) ∨
        MeetsByName tree resolver path target items name := by
  rw [(FileModule.extracted_ofItems tree resolver path
    items).mem_forwardedNames_iff, or_assoc]
  refine or_congr_right ?_
  simp only [namedAt_sites_iff]
  constructor
  · rintro ⟨item, hitem, ⟨localName?, exported⟩, hexported, rfl,
      hbound | hpassing⟩
    · cases localName? with
      | some localName =>
        exact .inl ⟨item, hitem, _, hexported, rfl, localName, rfl, hbound⟩
      | none => exact .inr ⟨item, hitem, _, hexported, rfl, .inr ⟨rfl, hbound⟩⟩
    · exact .inr ⟨item, hitem, _, hexported, rfl, .inl hpassing⟩
  · rintro (⟨item, hitem, ⟨_, exported⟩, hexported, rfl, localName,
      ⟨⟩, hbound⟩ | ⟨item, hitem, ⟨localName?, exported⟩, hexported, rfl,
      hpassing | ⟨rfl, hbound⟩⟩)
    · exact ⟨item, hitem, _, hexported, rfl, .inl hbound⟩
    · exact ⟨item, hitem, _, hexported, rfl, .inr hpassing⟩
    · exact ⟨item, hitem, _, hexported, rfl, .inl hbound⟩

end Names

def clashTree : FileTree :=
  ⟨[("b.ts", .file (some
      "import \x7b A \x7d from './u';\nexport \x7b A as B \x7d;\nexport \x7b A \x7d from './t';")),
    ("c.ts", .file (some
      "export \x7b default as Card \x7d from './t';\nexport default () => 1;")),
    ("t.ts", .file (some "")), ("u.ts", .file (some ""))]⟩

def clashItems : List ModuleItem :=
  [.staticImport ⟨"./u", [⟨"A", "A"⟩], .named, 1, 1,
    "import \x7b A \x7d from './u';"⟩, .exportClause [("A", "B")],
    .reExport ⟨"./t", [⟨"A", "A"⟩], .named, 3, 1,
      "export \x7b A \x7d from './t';"⟩ [("A", "A")]]

def ownDefaultItems : List ModuleItem :=
  [.reExport ⟨"./t", [⟨"default", "default"⟩], .standard, 1, 1,
      "export \x7b default as Card \x7d from './t';"⟩ [("default", "Card")],
    .exportDefault none]

theorem names_met_at_passing_sites_count :
    (((clashTree.readText ⟨"/b.ts"⟩).toOption.bind fun text =>
        (sourceItems .typeScript ⟨"/b.ts"⟩ text.toList).toOption) =
          some clashItems ∧
      "B" ∈ (forwardedNames clashTree (Resolver.new none)
        (.ofItems ⟨"/b.ts"⟩ clashItems) ⟨"/t.ts"⟩ none).names ∧
      ¬PassesTargetOn clashTree (Resolver.new none) ⟨"/b.ts"⟩ ⟨"/t.ts"⟩
        clashItems "B" ∧
      ¬ExportsImported clashTree (Resolver.new none) ⟨"/b.ts"⟩ ⟨"/t.ts"⟩
        clashItems "B") ∧
    "default" ∈
        (forwardedNames clashTree (Resolver.new none)
          (.ofItems ⟨"/c.ts"⟩ ownDefaultItems) ⟨"/t.ts"⟩ none).names ∧
      ¬PassesTargetOn clashTree (Resolver.new none) ⟨"/c.ts"⟩ ⟨"/t.ts"⟩
        ownDefaultItems "default" ∧
      ¬ExportsImported clashTree (Resolver.new none) ⟨"/c.ts"⟩ ⟨"/t.ts"⟩
        ownDefaultItems "default" := by
  decide +kernel

end ImportAtlas
