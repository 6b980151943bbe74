import ImportAtlas.Proofs.ReportedImports

/-!
# Hidden styles

A search looks for imports of the allowed styles only, and follows a barrel
only if an allowed import leads there.  While every barrel on the way keeps an
allowed import, a filter takes the imports of hidden styles out of the results
and changes nothing else.  A barrel that is imported in a hidden style only is
cut off, together with its users.
-/

namespace ImportAtlas

variable {tree : FileTree} {corpus : Corpus} {styles : StyleFilter}
    {target : Path}

def DistinctMatches (corpus : Corpus) (query : Query) : Prop :=
  ∀ first ∈ corpus.modules, ∀ second ∈ corpus.modules,
    first.path.key = second.path.key →
    (∃ record ∈ first.imports, query.accepts record = true) →
    (∃ record ∈ second.imports, query.accepts record = true) → first = second

private theorem Corpus.DistinctKeys.distinctMatches (h : corpus.DistinctKeys)
    (query : Query) : DistinctMatches corpus query :=
  fun _ hfirst _ hsecond hkey _ _ => h.eq_of_key hfirst hsecond hkey

/-- Every barrel that a search for the target follows is found by an import of
an allowed style. -/
structure KeepsBarrels (tree : FileTree) (corpus : Corpus)
    (styles : StyleFilter) (target : Path) : Prop where
  direct : ∀ module ∈ corpus.modules,
    (forwardedNames tree corpus.resolver module target none).isEmpty = false →
    ∃ record ∈ module.imports, styles.allows record.style = true ∧
      Query.targetMatches (Query.siblingBarrels tree corpus target)
        target record = true
  further : ∀ barrel names, FirstArrival tree corpus {} target barrel names →
    ∀ module ∈ corpus.modules, UsesBarrel tree corpus module barrel names →
      (forwardedNames tree corpus.resolver module barrel (some names)).isEmpty =
        false →
      ∃ record ∈ module.imports, styles.allows record.style = true ∧
        corpus.resolver.leadsTo tree module.path record barrel = true ∧
        usesAny record names = true

theorem StyleFilter.allows_default (style : ImportStyle) :
    ({} : StyleFilter).allows style = true := rfl

theorem keepsBarrels_default (hresolved : corpus.ResolvedIn tree) :
    KeepsBarrels tree corpus {} target where
  direct module hmember hnames := by
    obtain ⟨record, hrecord, hleads⟩ := exists_leadsTo_of_forwardedNames hnames
    exact ⟨record, hrecord, rfl,
      targetMatches_of_leadsTo hresolved hmember hrecord hleads _⟩
  further _ _ _ _ _ huses _ := by
    obtain ⟨-, record, hrecord, hleads, hnames⟩ := huses
    exact ⟨record, hrecord, rfl, hleads, hnames⟩

private theorem usesAny_congr {first second : ImportRecord}
    (hnames : first.importedNames = second.importedNames)
    (hkind : first.kind = second.kind) (names : NameSet) :
    usesAny first names = usesAny second names := by
  have hempty : first.isSideEffectOnly = second.isSideEffectOnly := by
    simpa [ImportRecord.importedNames, ImportRecord.isSideEffectOnly] using
      congrArg List.isEmpty hnames
  have hwhole : first.bindsWhole = second.bindsWhole := by
    have hany := congrArg (fun names => names.any (· == wholeName)) hnames
    simp only [ImportRecord.importedNames, List.any_map] at hany
    rw [ImportRecord.bindsWhole, ImportRecord.bindsWhole, hkind]
    exact congrArg (second.kind == .whole || ·) hany
  rw [usesAny, usesAny, hempty, hwhole, hnames]

/-- Barrels are kept if every import stands beside an allowed one of the same
names by the same specifier. -/
theorem keepsBarrels_of_twins (hresolved : corpus.ResolvedIn tree)
    (htwins : ∀ module ∈ corpus.modules, ∀ record ∈ module.imports,
      ∃ twin ∈ module.imports, styles.allows twin.style = true ∧
        twin.specifier = record.specifier ∧
        twin.importedNames = record.importedNames ∧ twin.kind = record.kind) :
    KeepsBarrels tree corpus styles target := by
  have htwin : ∀ module ∈ corpus.modules, ∀ record ∈ module.imports,
      ∃ twin ∈ module.imports,
      styles.allows twin.style = true ∧ twin.resolved = record.resolved ∧
        ∀ names, usesAny twin names = usesAny record names := by
    intro module hmember record hrecord
    obtain ⟨twin, hmem, hallowed, hspecifier, hnames, hkind⟩ :=
      htwins module hmember record hrecord
    refine ⟨twin, hmem, hallowed, ?_, usesAny_congr hnames hkind⟩
    rw [hresolved module hmember twin hmem,
      hresolved module hmember record hrecord, hspecifier]
  constructor
  · intro module hmember hnames
    obtain ⟨record, hrecord, -, hmatch⟩ :=
      (keepsBarrels_default hresolved).direct module hmember hnames
    obtain ⟨twin, hmem, hallowed, hsame, huses⟩ :=
      htwin module hmember record hrecord
    refine ⟨twin, hmem, hallowed, ?_⟩
    simpa only [Query.targetMatches, hsame, huses] using hmatch
  · rintro barrel names - module hmember ⟨-, record, hrecord, hleads, hnames⟩ -
    obtain ⟨twin, hmem, hallowed, hsame, huses⟩ :=
      htwin module hmember record hrecord
    refine ⟨twin, hmem, hallowed, ?_, by rw [huses, hnames]⟩
    rw [hresolved.leadsTo_iff hmember hmem, ImportRecord.ResolvesTo, hsame]
    exact (hresolved.leadsTo_iff hmember hrecord).1 hleads

/-! ## Direct importers -/

theorem exists_allowed_iff {records : List ImportRecord}
    {identity : ImportIdentity} {p : ImportRecord → Prop} :
    (∃ record ∈ records, record.identity = identity ∧
      styles.allows record.style = true ∧ p record) ↔
      (∃ record ∈ records, record.identity = identity ∧ p record) ∧
      styles.allows identity.2.2 = true := by
  constructor
  · rintro ⟨record, hrecord, rfl, hallowed, h⟩
    exact ⟨⟨record, hrecord, rfl, h⟩, hallowed⟩
  · rintro ⟨⟨record, hrecord, rfl, h⟩, hallowed⟩
    exact ⟨record, hrecord, rfl, hallowed, h⟩

theorem reports_directImporters_iff_default (query : Query) {key : String}
    {identity : ImportIdentity} :
    Reports (directImporters corpus styles query) key identity ↔
      Reports (directImporters corpus {} query) key identity ∧
      styles.allows identity.2.2 = true := by
  simp only [reports_directImporters, exists_allowed_iff,
    StyleFilter.allows_default, true_and]
  simp only [← and_assoc, exists_and_right]

theorem exists_accepted_of_matchingImports {query : Query} {module : FileModule}
    (h : matchingImports styles query module ≠ []) :
    ∃ record ∈ module.imports, query.accepts record = true := by
  obtain ⟨record, hrecord⟩ := List.exists_mem_of_ne_nil _ h
  obtain ⟨himport, hmatch⟩ := List.mem_filter.1 hrecord
  exact ⟨record, himport, (Bool.and_eq_true_iff.1 hmatch).2⟩

private theorem DistinctMatches.nodup_importerKeys
    (hpaths : corpus.DistinctPaths) {query : Query}
    (h : DistinctMatches corpus query) :
    (importerKeys (directImporters corpus styles query)).Nodup := by
  rw [importerKeys, directImporters_eq, List.Nodup, List.pairwise_map,
    List.pairwise_filterMap]
  refine hpaths.imp_of_mem ?_
  intro first second hfirst hsecond hother importer himporter later hlater hkey
  obtain ⟨hmatch, rfl⟩ := importerOf?_eq_some.1 himporter
  obtain ⟨hmatch', rfl⟩ := importerOf?_eq_some.1 hlater
  obtain rfl := h first hfirst second hsecond hkey
    (exists_accepted_of_matchingImports hmatch)
    (exists_accepted_of_matchingImports hmatch')
  exact hother (Path.same_refl _)

/-! ## Barrels -/

private theorem reports_consumers_iff_default (carrier : Carrier) {key : String}
    {identity : ImportIdentity} :
    Reports (carrier.consumers tree corpus styles) key identity ↔
      Reports (carrier.consumers tree corpus {}) key identity ∧
      styles.allows identity.2.2 = true := by
  simp only [reports_consumers, exists_allowed_iff, StyleFilter.allows_default,
    true_and]
  simp only [← and_assoc, exists_and_right]

namespace KeepsBarrels

theorem directCarriers_eq (h : KeepsBarrels tree corpus styles target)
    (hpaths : corpus.DistinctPaths) (name : Option String) :
    directCarriers tree corpus target
      (directImporters corpus styles (fileQuery tree corpus name target)) =
      firstCarriers tree corpus target := by
  refine directCarriers_of_matching hpaths fun module hmember carrier
    hcarrier => ?_
  obtain ⟨record, hrecord, hallowed, hmatch⟩ :=
    h.direct module hmember (FileModule.carrier?_eq_some.1 hcarrier).1
  apply List.ne_nil_of_mem (a := record)
  simp [matchingImports, fileQuery, Query.accepts_of_target, hrecord,
    hallowed, hmatch]

private theorem isEmpty_uses_eq (h : KeepsBarrels tree corpus styles target)
    {carrier next : Carrier}
    (hreached : FirstArrival tree corpus {} target carrier.barrel carrier.names)
    {module : FileModule} (hmember : module ∈ corpus.modules)
    (hother : module.path.sameFile carrier.barrel = false)
    (hnext : module.carrier? tree corpus.resolver carrier.barrel
      (some carrier.names) = some next) :
    (carrier.uses tree corpus.resolver styles module).isEmpty =
      (carrier.uses tree corpus.resolver {} module).isEmpty := by
  rw [Bool.eq_iff_iff, List.isEmpty_iff, List.isEmpty_iff,
    List.eq_nil_iff_forall_not_mem, List.eq_nil_iff_forall_not_mem]
  constructor
  · intro hnone record hrecord
    obtain ⟨himport, hleads, huses, -⟩ := Carrier.mem_uses.1 hrecord
    obtain ⟨kept, hkept, hallowed, hleads, huses⟩ := h.further _ _ hreached
      module hmember ⟨hother, record, himport, hleads, huses⟩
      (FileModule.carrier?_eq_some.1 hnext).1
    exact hnone kept (Carrier.mem_uses.2 ⟨hkept, hleads, huses, hallowed⟩)
  · intro hnone record hrecord
    obtain ⟨himport, hleads, huses, -⟩ := Carrier.mem_uses.1 hrecord
    exact hnone record (Carrier.mem_uses.2 ⟨himport, hleads, huses, rfl⟩)

private theorem arrivals_eq (h : KeepsBarrels tree corpus styles target)
    {carrier : Carrier}
    (hreached : FirstArrival tree corpus {} target carrier.barrel
      carrier.names) :
    carrier.arrivals tree corpus styles = carrier.arrivals tree corpus {} := by
  refine List.filterMap_congr fun module hmember => ?_
  cases hother : module.path.sameFile carrier.barrel with
  | true => simp
  | false =>
      cases hnext : module.carrier? tree corpus.resolver carrier.barrel
        (some carrier.names) with
      | none => simp
      | some next => rw [h.isEmpty_uses_eq hreached hmember hother hnext]

private theorem rounds_eq (h : KeepsBarrels tree corpus styles target)
    (count : Nat) :
    Carrier.rounds tree corpus styles (firstCarriers tree corpus target) count =
      Carrier.rounds tree corpus {}
      (firstCarriers tree corpus target) count := by
  induction count with
  | zero => rfl
  | succ count ih =>
      -- The carriers of the last round are known, so they are first arrivals
      -- with every style allowed.
      have hnext :
            (Carrier.rounds tree corpus {} (firstCarriers tree corpus target)
              count).2.flatMap
            (Carrier.arrivals tree corpus styles) =
          (Carrier.rounds tree corpus {} (firstCarriers tree corpus target)
            count).2.flatMap (Carrier.arrivals tree corpus {}) :=
        List.flatMap_congr fun carrier hlast =>
          h.arrivals_eq ⟨count, Carrier.last_subset_known _ hlast⟩
      simp only [Carrier.rounds, ih, hnext]

theorem reports_fileQuery (h : KeepsBarrels tree corpus styles target)
    (hpaths : corpus.DistinctPaths)
    {name : Option String}
    (hmatches : DistinctMatches corpus (fileQuery tree corpus name target))
    {key : String} {identity : ImportIdentity} :
    Reports (searchResults tree corpus styles
      (fileQuery tree corpus name target)) key identity ↔
      Reports (directImporters corpus styles
        (fileQuery tree corpus name target)) key identity ∨
        ∃ count, ∃ carrier ∈ reachedBarrels tree corpus {} target count,
          Reports (carrier.consumers tree corpus styles) key identity := by
  have hdirect : addImporters []
      (directImporters corpus styles (fileQuery tree corpus name target)) =
      directImporters corpus styles (fileQuery tree corpus name target) :=
    addImporters_of_nodup (hmatches.nodup_importerKeys hpaths)
  change Reports (traceBarrels tree corpus styles target (addImporters [] _))
    key identity ↔ _
  rw [hdirect, reports_traceBarrels hpaths, h.directCarriers_eq hpaths]
  simp only [h.rounds_eq, reachedBarrels]

private theorem reports_fileQuery_iff_default
    (h : KeepsBarrels tree corpus styles target) (hloaded : corpus.Loaded tree)
    {name : Option String}
    (hmatches : DistinctMatches corpus (fileQuery tree corpus name target))
    {key : String} {identity : ImportIdentity} :
    Reports (searchResults tree corpus styles
      (fileQuery tree corpus name target)) key identity ↔
      Reports (searchResults tree corpus {} (fileQuery tree corpus name target))
        key identity ∧
        styles.allows identity.2.2 = true := by
  rw [h.reports_fileQuery hloaded.ordered.distinctPaths hmatches,
    (keepsBarrels_default hloaded.resolved).reports_fileQuery
      hloaded.ordered.distinctPaths hmatches,
    reports_directImporters_iff_default]
  simp only [@reports_consumers_iff_default tree corpus styles]
  constructor
  · rintro (⟨hdirect, hallowed⟩ | ⟨count, carrier, hreached,
      hconsumer, hallowed⟩)
    · exact ⟨.inl hdirect, hallowed⟩
    · exact ⟨.inr ⟨count, carrier, hreached, hconsumer⟩, hallowed⟩
  · rintro ⟨hdirect | ⟨count, carrier, hreached, hconsumer⟩, hallowed⟩
    · exact .inl ⟨hdirect, hallowed⟩
    · exact .inr ⟨count, carrier, hreached, hconsumer, hallowed⟩

end KeepsBarrels

/-! ## Searches -/

/--
Whatever styles are hidden, no file is reported without imports, and every
allowed import that matches directly is reported.  If the filter keeps the
barrels, and no two files of one identity match directly, the search reports
exactly the imports of allowed styles that it reports with no style hidden.
-/
theorem styleFilter_hides_only_its_styles (hloaded : corpus.Loaded tree)
    (name : Option String) (options : ScanOptions) :
    (∀ importer ∈ (searchCorpus tree corpus name options).results,
      importer.imports ≠ []) ∧
      (∀ module ∈ corpus.modules, ∀ record ∈ module.imports,
        (Query.build tree corpus name options).accepts record = true →
        options.styles.allows record.style = true →
        Reports (searchCorpus tree corpus name options).results module.path.key
          record.identity) ∧
      ((∀ target, (Query.build tree corpus name options).target = some target →
          DistinctMatches corpus (Query.build tree corpus name options) ∧
            KeepsBarrels tree corpus options.styles target) →
        ∀ key identity,
          Reports (searchCorpus tree corpus name options).results key identity ↔
            Reports (searchCorpus tree corpus name
              { options with styles := {} }).results key identity ∧
              options.styles.allows identity.2.2 = true) := by
  have hpaths := hloaded.ordered.distinctPaths
  refine ⟨imports_ne_nil_searchResults hpaths _, ?_, ?_⟩
  · intro module hmember record hrecord haccepted hallowed
    refine reports_searchResults_of_direct hpaths (reports_directImporters.2 ?_)
    exact ⟨module, hmember, rfl, record, hrecord, rfl, hallowed, haccepted⟩
  · intro hkept key identity
    change Reports (searchResults tree corpus options.styles
      (Query.build tree corpus name options)) key identity ↔
      Reports (searchResults tree corpus {}
        (Query.build tree corpus name options)) key identity ∧ _
    cases hpath : options.modulePath with
    | none =>
        -- A search for a name follows no barrels.
        simp only [searchResults, Query.build, hpath, Option.map_none,
          reports_addImporters]
        rw [reports_directImporters_iff_default]
        simp [Reports]
    | some path =>
        rw [Query.build_of_modulePath name hpath] at hkept ⊢
        obtain ⟨hmatches, hkeeps⟩ := hkept _ rfl
        exact hkeeps.reports_fileQuery_iff_default hloaded hmatches

/-! ## Small projects -/

def Corpus.ofItems (tree : FileTree) (files : List (Path × List ModuleItem)) :
    Corpus :=
  { Corpus.new ⟨"/"⟩ (Resolver.new none) with
    modules := files.foldr (fun file modules =>
      insertModule (resolveImports tree (Resolver.new none)
        (FileModule.ofItems file.1 file.2)) modules) [] }

theorem Corpus.ofItems_loaded (tree : FileTree)
    (files : List (Path × List ModuleItem)) :
    (ofItems tree files).Loaded tree := by
  induction files with
  | nil => exact loaded_new tree _ _
  | cons file files ih =>
      refine ⟨insertModule_ordered _ ih.ordered, ?_⟩
      intro module hmodule
      rcases mem_insertModule hmodule with rfl | hmodule
      · exact resolveImports_resolved tree _ _
      · exact ih.resolved module hmodule

def siteOf (specifier : String) (bindings : List Binding) (line : Nat) :
    ImportSite :=
  ⟨specifier, bindings, .named, line, 1, ""⟩

def requireHidden : StyleFilter := ({} : StyleFilter).without .require

def staticSearch : ScanOptions := { forkSearch with styles := requireHidden }

def pairedTree : FileTree :=
  ⟨[("b.ts", .file (some
      "import \x7b A \x7d from './t';\nconst \x7b A: B \x7d = require('./t');\nexport \x7b A \x7d;")),
    ("c.ts", .file (some
      "import \x7b A \x7d from './b';\nconst \x7b A: B \x7d = require('./b');\nexport \x7b A \x7d;")),
    ("t.ts", .file (some "export const A = 1;")),
    ("user.ts", .file (some
      "import \x7b A \x7d from './c';\nconst \x7b A: B \x7d = require('./c');"))]⟩

def pairedItems (specifier : String) : List ModuleItem :=
  [.staticImport (siteOf specifier [⟨"A", "A"⟩] 1),
    .require (siteOf specifier [⟨"A", "B"⟩] 2)]

def pairedCorpus : Corpus :=
  .ofItems pairedTree
    [(⟨"/b.ts"⟩, pairedItems "./t" ++ [.exportClause [("A", "A")]]),
      (⟨"/c.ts"⟩, pairedItems "./b" ++ [.exportClause [("A", "A")]]),
      (⟨"/t.ts"⟩, [.exportDeclaration ["A"]]),
        (⟨"/user.ts"⟩, pairedItems "./c")]

theorem static_user_kept_without_requires :
    Reports (searchCorpus pairedTree pairedCorpus none staticSearch).results
      "/user" ("./c", 1, .static) ∧
      ¬Reports (searchCorpus pairedTree pairedCorpus none staticSearch).results
        "/user" ("./c", 2, .require) ∧
      Reports (searchCorpus pairedTree pairedCorpus none forkSearch).results
        "/user" ("./c", 2, .require) := by
  have hloaded : pairedCorpus.Loaded pairedTree := Corpus.ofItems_loaded _ _
  obtain ⟨hkeys, htwins, hstatic, hrequire⟩ :
      pairedCorpus.DistinctKeys ∧
        (∀ module ∈ pairedCorpus.modules, ∀ record ∈ module.imports,
          ∃ twin ∈ module.imports, requireHidden.allows twin.style = true ∧
            twin.specifier = record.specifier ∧
            twin.importedNames = record.importedNames ∧
            twin.kind = record.kind) ∧
        Reports (searchCorpus pairedTree pairedCorpus none forkSearch).results
          "/user" ("./c", 1, .static) ∧
        Reports (searchCorpus pairedTree pairedCorpus none forkSearch).results
          "/user" ("./c", 2, .require) := by
    decide +kernel
  have hiff :=
    (styleFilter_hides_only_its_styles hloaded none staticSearch).2.2
      fun target _ =>
        ⟨hkeys.distinctMatches _, keepsBarrels_of_twins hloaded.resolved htwins⟩
  refine ⟨(hiff _ _).2 ⟨hstatic, rfl⟩, ?_, hrequire⟩
  intro hreported
  exact absurd ((hiff _ _).1 hreported).2 (by decide)

def requiringTree : FileTree :=
  ⟨[("b.ts",
    .file (some "const \x7b A \x7d = require('./t');\nexport \x7b A \x7d;")),
    ("t.ts", .file (some "export const A = 1;")),
    ("user.ts", .file (some "import \x7b A \x7d from './b';"))]⟩

def requiringCorpus : Corpus :=
  .ofItems requiringTree
    [(⟨"/b.ts"⟩, [.require (siteOf "./t" [⟨"A", "A"⟩] 1),
      .exportClause [("A", "A")]]), (⟨"/t.ts"⟩, [.exportDeclaration ["A"]]),
      (⟨"/user.ts"⟩, [.staticImport (siteOf "./b" [⟨"A", "A"⟩] 1)])]

def twoFacedTree : FileTree :=
  ⟨[("a.ts", .file (some "const \x7b A \x7d = require('./t');")),
    ("a.tsx",
      .file (some "import \x7b A \x7d from './t';\nexport \x7b A \x7d;")),
    ("t.ts", .file (some "export const A = 1;")),
      ("user.ts", .file (some "import \x7b A \x7d from './a.tsx';"))]⟩

def twoFacedCorpus : Corpus :=
  .ofItems twoFacedTree
    [(⟨"/a.ts"⟩, [.require (siteOf "./t" [⟨"A", "A"⟩] 1)]),
      (⟨"/a.tsx"⟩, [.staticImport (siteOf "./t" [⟨"A", "A"⟩] 1),
        .exportClause [("A", "A")]]),
      (⟨"/t.ts"⟩, [.exportDeclaration ["A"]]),
        (⟨"/user.ts"⟩, [.staticImport (siteOf "./a.tsx" [⟨"A", "A"⟩] 1)])]

def oneLineTree : FileTree :=
  ⟨[("hub.ts", .file (some "export \x7b A, B \x7d from './t';")),
    ("t.ts", .file (some "export const A = 1;\nexport const B = 2;")),
    ("user.ts", .file (some ("const \x7b A: C \x7d = require('./t'); " ++
      "import \x7b A \x7d from './hub'; import \x7b B \x7d from './hub';")))]⟩

def oneLineCorpus : Corpus :=
  .ofItems oneLineTree
    [(⟨"/hub.ts"⟩, [.reExport (siteOf "./t" [⟨"A", "A"⟩, ⟨"B", "B"⟩] 1)
      [("A", "A"), ("B", "B")]]),
      (⟨"/t.ts"⟩, [.exportDeclaration ["A"], .exportDeclaration ["B"]]),
        (⟨"/user.ts"⟩, [.require (siteOf "./t" [⟨"A", "C"⟩] 1),
          .staticImport (siteOf "./hub" [⟨"A", "A"⟩] 1),
          .staticImport (siteOf "./hub" [⟨"B", "B"⟩] 1)])]

/--
Hiding a style cuts off the users of a barrel; it brings up users where another
file of the barrel's identity stood in the way, and an import where another one
of its identity was merged with it.
-/
theorem hidden_requires_change_static_reports :
    (requiringCorpus.Loaded requiringTree ∧ requiringCorpus.DistinctKeys ∧
      Reports (searchCorpus requiringTree requiringCorpus none
        forkSearch).results "/user" ("./b", 1, .static) ∧
      ¬Reports (searchCorpus requiringTree requiringCorpus none
        staticSearch).results "/user" ("./b", 1, .static)) ∧
    (twoFacedCorpus.Loaded twoFacedTree ∧
      ¬Reports (searchCorpus twoFacedTree twoFacedCorpus none
        forkSearch).results "/user" ("./a.tsx", 1, .static) ∧
      Reports (searchCorpus twoFacedTree twoFacedCorpus none
        staticSearch).results "/user" ("./a.tsx", 1, .static)) ∧
    (oneLineCorpus.Loaded oneLineTree ∧ oneLineCorpus.DistinctKeys ∧
      ∃ importer ∈
        (searchCorpus oneLineTree oneLineCorpus none staticSearch).results,
        ∃ record ∈ importer.imports,
          ∀ other ∈ (searchCorpus oneLineTree oneLineCorpus none
            forkSearch).results, record ∉ other.imports) := by
  refine ⟨⟨Corpus.ofItems_loaded _ _, ?_⟩, ⟨Corpus.ofItems_loaded _ _, ?_⟩,
    Corpus.ofItems_loaded _ _, ?_⟩ <;> decide +kernel

end ImportAtlas
