import ImportAtlas.Proofs.BarrelRounds

/-!
# How far a search reaches

With all styles allowed, a search for a file reports a module exactly when the
module imports the file itself, or uses a barrel by names of the barrel's first
arrival.  Names that reach a barrel by a later chain do not count: their users
are missed.
-/

namespace ImportAtlas

variable {tree : FileTree} {corpus : Corpus} {styles : StyleFilter}
    {target : Path}

/-! ## Imports of the target -/

theorem exists_leadsTo_of_forwardedNames {resolver : Resolver}
    {module : FileModule} {via : Path} {carried : Carried}
    (h : (forwardedNames tree resolver module via carried).isEmpty = false) :
    ∃ record ∈ module.imports,
      resolver.leadsTo tree module.path record via = true := by
  simp only [forwardedNames] at h
  split at h
  · contradiction
  · rename_i hsome
    obtain ⟨record, hrecord⟩ :=
      List.exists_mem_of_ne_nil _ (fun hnil => hsome (List.isEmpty_iff.2 hnil))
    exact ⟨record, List.mem_filter.1 hrecord⟩

def fileQuery (tree : FileTree) (corpus : Corpus) (name : Option String)
    (target : Path) : Query :=
  ⟨name, some target, Query.siblingBarrels tree corpus target⟩

private theorem matchingImports_ne_nil
    (hstyles : ∀ style, styles.allows style = true) {name : Option String}
    {module : FileModule} :
    matchingImports styles (fileQuery tree corpus name target) module ≠ [] ↔
      ∃ record ∈ module.imports,
        Query.targetMatches (Query.siblingBarrels tree corpus target)
          target record = true := by
  simp only [matchingImports, fileQuery, Query.accepts_of_target, hstyles,
    Bool.true_and, ne_eq, List.filter_eq_nil_iff]
  simp

theorem targetMatches_iff (hresolved : corpus.ResolvedIn tree)
    {module : FileModule} (hmember : module ∈ corpus.modules)
    {record : ImportRecord} (hrecord : record ∈ module.imports)
    {siblings : List (Path × NameSet)} :
    Query.targetMatches siblings target record = true ↔
      corpus.resolver.leadsTo tree module.path record target = true ∨
        ∃ index names, (index, names) ∈ siblings ∧
          corpus.resolver.leadsTo tree module.path record index = true ∧
          usesAny record names = true := by
  simp only [hresolved.leadsTo_iff hmember hrecord, ImportRecord.ResolvesTo,
    Query.targetMatches]
  cases record.resolved with
  | none => simp
  | some found => simp

theorem targetMatches_of_leadsTo (hresolved : corpus.ResolvedIn tree)
    {module : FileModule} (hmember : module ∈ corpus.modules)
    {record : ImportRecord} (hrecord : record ∈ module.imports)
    (h : corpus.resolver.leadsTo tree module.path record target = true)
    (siblings : List (Path × NameSet)) :
    Query.targetMatches siblings target record = true :=
  (targetMatches_iff hresolved hmember hrecord).2 (.inl h)

theorem matchingImports_of_carrier? (hresolved : corpus.ResolvedIn tree)
    (hstyles : ∀ style, styles.allows style = true) (name : Option String)
    (siblings : List (Path × NameSet)) {module : FileModule}
    (hmember : module ∈ corpus.modules) {carried : Carried} {carrier : Carrier}
    (h : module.carrier? tree corpus.resolver target carried = some carrier) :
    matchingImports styles ⟨name, some target, siblings⟩ module ≠ [] := by
  obtain ⟨record, hrecord, hleads⟩ :=
    exists_leadsTo_of_forwardedNames (FileModule.carrier?_eq_some.1 h).1
  apply List.ne_nil_of_mem (a := record)
  simp [matchingImports, Query.accepts_of_target, hrecord, hstyles,
    targetMatches_of_leadsTo hresolved hmember hrecord hleads]

/-! ## The first round -/

private theorem nodup_importerKeys_directImporters (hkeys : corpus.DistinctKeys)
    (query : Query) :
    (importerKeys (directImporters corpus styles query)).Nodup := by
  rw [importerKeys, directImporters_eq]
  refine hkeys.nodup_filterMap ?_
  intro module importer himporter
  rw [(importerOf?_eq_some.1 himporter).2]

theorem directCarriers_of_matching (hpaths : corpus.DistinctPaths)
    {query : Query}
    (hmatching : ∀ module ∈ corpus.modules, ∀ carrier,
      module.carrier? tree corpus.resolver target none = some carrier →
      matchingImports styles query module ≠ []) :
    directCarriers tree corpus target (directImporters corpus styles query) =
      firstCarriers tree corpus target := by
  rw [directCarriers, Trace.start, directImporters_eq, List.filterMap_map,
    List.filterMap_filterMap, firstCarriers]
  refine List.filterMap_congr fun module hmember => ?_
  have hmodule := Pending.carrier?_of_module tree hpaths hmember target none
  by_cases hnone : (matchingImports styles query module).isEmpty = true
  · cases hcarrier : module.carrier? tree corpus.resolver target none with
    | none => simp [importerOf?, hnone]
    | some carrier =>
      exact absurd (List.isEmpty_iff.1 hnone)
        (hmatching module hmember carrier hcarrier)
  · simp [importerOf?, hnone, hmodule]

theorem directCarriers_eq (hresolved : corpus.ResolvedIn tree)
    (hkeys : corpus.DistinctKeys)
    (hstyles : ∀ style, styles.allows style = true) (name : Option String) :
    directCarriers tree corpus target
      (directImporters corpus styles (fileQuery tree corpus name target)) =
      firstCarriers tree corpus target :=
  directCarriers_of_matching hkeys.distinctPaths fun _ hmember _ hcarrier =>
    matchingImports_of_carrier? hresolved hstyles name _ hmember hcarrier

/-! ## Users -/

/-- Whether a module other than the barrel imports one of the names from it. -/
def UsesBarrel (tree : FileTree) (corpus : Corpus) (module : FileModule)
    (barrel : Path) (names : NameSet) : Prop :=
  module.path.sameFile barrel = false ∧
    ∃ record ∈ module.imports,
      corpus.resolver.leadsTo tree module.path record barrel = true ∧
      usesAny record names = true

private theorem key_mem_importerKeys_directImporters
    (hkeys : corpus.DistinctKeys) {module : FileModule}
    (hmember : module ∈ corpus.modules) (query : Query) :
    module.path.key ∈ importerKeys (directImporters corpus styles query) ↔
      matchingImports styles query module ≠ [] := by
  constructor
  · intro h
    obtain ⟨importer, himporter, hkey⟩ := List.mem_map.1 h
    obtain ⟨other, hother, hmatching, rfl⟩ := mem_directImporters.1 himporter
    rwa [← hkeys.eq_of_key hother hmember hkey]
  · intro h
    exact List.mem_map.2 ⟨_, mem_directImporters.2 ⟨module, hmember, h, rfl⟩,
      rfl⟩

private theorem key_mem_importerKeys_consumers (hkeys : corpus.DistinctKeys)
    (hstyles : ∀ style, styles.allows style = true) {module : FileModule}
    (hmember : module ∈ corpus.modules) (carrier : Carrier) :
    module.path.key ∈ importerKeys (carrier.consumers tree corpus styles) ↔
      UsesBarrel tree corpus module carrier.barrel carrier.names := by
  have huses : carrier.uses tree corpus.resolver styles module ≠ [] ↔
      ∃ record ∈ module.imports,
        corpus.resolver.leadsTo tree module.path record carrier.barrel = true ∧
          usesAny record carrier.names = true := by
    simp only [ne_eq, List.eq_nil_iff_forall_not_mem, Carrier.mem_uses,
      hstyles, and_true]
    simp
  constructor
  · intro h
    obtain ⟨importer, himporter, hkey⟩ := List.mem_map.1 h
    obtain ⟨other, hother, hdifferent, hused, rfl⟩ :=
      Carrier.mem_consumers.1 himporter
    obtain rfl := hkeys.eq_of_key hother hmember hkey
    exact ⟨hdifferent, huses.1 hused⟩
  · rintro ⟨hdifferent, hused⟩
    exact List.mem_map.2 ⟨_, Carrier.mem_consumers.2 ⟨module, hmember,
      hdifferent, huses.2 hused, rfl⟩, rfl⟩

private theorem leadsTo_or_usesBarrel_of_targetMatches
    (hkeys : corpus.DistinctKeys) {module : FileModule}
    (hmember : module ∈ corpus.modules) {record : ImportRecord}
    (hrecord : record ∈ module.imports)
    (h : Query.targetMatches (Query.siblingBarrels tree corpus target) target
      record = true) :
    (∃ record ∈ module.imports,
      corpus.resolver.leadsTo tree module.path record target = true) ∨
      ∃ barrel ∈ corpus.modules,
        (forwardedNames tree corpus.resolver barrel target none).isEmpty =
          false ∧
        UsesBarrel tree corpus module barrel.path
          (forwardedNames tree corpus.resolver barrel target none) := by
  rcases Query.leadsTo_or_uses_of_targetMatches h module.path
    with hdirect | ⟨barrel, hbarrel, hnonempty, huses⟩
  · exact .inl ⟨record, hrecord, hdirect⟩
  · by_cases hsame : module.path.sameFile barrel.path = true
    · obtain rfl := hkeys.eq_of_key hmember hbarrel (Path.sameFile_iff.1 hsame)
      exact .inl (exists_leadsTo_of_forwardedNames hnonempty)
    · exact .inr ⟨barrel, hbarrel, hnonempty, by simpa using hsame, record,
        hrecord, huses⟩

/-! ## Searches -/

def Reported (results : List Importer) (module : FileModule) : Prop :=
  ∃ importer ∈ results, importer.file = module.path

theorem searchResults_files (hkeys : corpus.DistinctKeys) (styles : StyleFilter)
    (target : Path) (query : Query) :
    ∀ importer ∈ traceBarrels tree corpus styles target
      (directImporters corpus styles query),
      ∃ module ∈ corpus.modules, module.path = importer.file := by
  rw [traceBarrels_eq tree styles hkeys.distinctPaths target _ (Nat.le_refl _),
    Trace.afterRounds]
  refine forall_file_addImporters (p :=
    fun file => ∃ module ∈ corpus.modules, module.path = file) ?_ ?_
  · intro importer himporter
    obtain ⟨module, hmember, -, rfl⟩ := mem_directImporters.1 himporter
    exact ⟨module, hmember, rfl⟩
  · intro importer himporter
    obtain ⟨carrier, -, hconsumer⟩ := List.mem_flatMap.1 himporter
    obtain ⟨module, hmember, -, -, rfl⟩ := Carrier.mem_consumers.1 hconsumer
    exact ⟨module, hmember, rfl⟩

private theorem reported_iff_key_mem (hkeys : corpus.DistinctKeys)
    {results : List Importer}
    (hfiles : ∀ importer ∈ results, ∃ module ∈ corpus.modules, module.path =
      importer.file)
    {module : FileModule} (hmember : module ∈ corpus.modules) :
    Reported results module ↔ module.path.key ∈ importerKeys results := by
  constructor
  · rintro ⟨importer, himporter, hfile⟩
    exact List.mem_map.2 ⟨importer, himporter, by rw [hfile]⟩
  · intro h
    obtain ⟨importer, himporter, hkey⟩ := List.mem_map.1 h
    obtain ⟨other, hother, hfile⟩ := hfiles importer himporter
    rw [← hfile] at hkey
    obtain rfl := hkeys.eq_of_key hother hmember hkey
    exact ⟨importer, himporter, hfile.symm⟩

theorem searchResults_of_target (hkeys : corpus.DistinctKeys)
    (styles : StyleFilter) (name : Option String) (target : Path)
    (siblings : List (Path × NameSet)) :
    searchResults tree corpus styles ⟨name, some target, siblings⟩ =
      traceBarrels tree corpus styles target
        (directImporters corpus styles ⟨name, some target, siblings⟩) := by
  simp only [searchResults]
  rw [addImporters_of_nodup (nodup_importerKeys_directImporters hkeys _),
    List.nil_append]

private theorem searchCorpus_results_of_modulePath (hkeys : corpus.DistinctKeys)
    (name : Option String) {options : ScanOptions} {path : Path}
    (hpath : options.modulePath = some path) :
    (searchCorpus tree corpus name options).results =
      traceBarrels tree corpus options.styles
        (corpus.resolver.resolveTarget tree path options.workingDirectory)
        (directImporters corpus options.styles
          (fileQuery tree corpus name (corpus.resolver.resolveTarget tree path
            options.workingDirectory))) := by
  simp only [searchCorpus, Query.build_of_modulePath name hpath]
  exact searchResults_of_target hkeys _ _ _ _

/--
A search for a file, with all styles allowed, reports a module exactly when the
module imports the file itself or uses the last barrel of some chain by the
names that arrived at this barrel first.
-/
theorem search_reports_iff_first_arrival (hloaded : corpus.Loaded tree)
    (hkeys : corpus.DistinctKeys) (name : Option String) {options : ScanOptions}
    {path : Path} (hpath : options.modulePath = some path)
    (hstyles : ∀ style, options.styles.allows style = true)
    {module : FileModule} (hmember : module ∈ corpus.modules) :
    Reported (searchCorpus tree corpus name options).results module ↔
      (∃ record ∈ module.imports,
          corpus.resolver.leadsTo tree module.path record
            (corpus.resolver.resolveTarget tree path options.workingDirectory) =
            true) ∨
        ∃ barrel names,
          BarrelChain tree corpus (corpus.resolver.resolveTarget tree path
            options.workingDirectory) barrel names ∧
          FirstArrival tree corpus options.styles
            (corpus.resolver.resolveTarget tree path options.workingDirectory)
            barrel.path names ∧
          UsesBarrel tree corpus module barrel.path names := by
  rw [searchCorpus_results_of_modulePath hkeys name hpath]
  generalize corpus.resolver.resolveTarget tree path options.workingDirectory =
    target
  rw [reported_iff_key_mem hkeys (searchResults_files hkeys _ _ _) hmember,
    mem_importerKeys_traceBarrels tree _ hkeys,
    key_mem_importerKeys_directImporters hkeys hmember,
    matchingImports_ne_nil hstyles,
    directCarriers_eq hloaded.resolved hkeys hstyles]
  simp only [key_mem_importerKeys_consumers hkeys hstyles hmember]
  constructor
  · rintro (⟨record, hrecord, hmatch⟩ | ⟨count, carrier, hcarrier, huses⟩)
    · -- A direct match may go through an index file beside the target: a barrel
      -- of the first round.
      refine (leadsTo_or_usesBarrel_of_targetMatches hkeys hmember hrecord
        hmatch).imp id ?_
      rintro ⟨barrel, hbarrel, hnames, huses⟩
      exact ⟨barrel, _, .first hbarrel hnames,
        FirstArrival.of_first hkeys hbarrel hnames, huses⟩
    · obtain ⟨barrel, hchain, hpath⟩ :=
        chained_of_mem_reachedBarrels count carrier hcarrier
      rw [← hpath] at huses
      exact .inr ⟨barrel, carrier.names, hchain,
        ⟨count, by rw [hpath]; exact hcarrier⟩, huses⟩
  · rintro (⟨record, hrecord, hleads⟩ | ⟨barrel, names, -,
      ⟨count, hreached⟩, huses⟩)
    · exact .inl ⟨record, hrecord,
        targetMatches_of_leadsTo hloaded.resolved hmember hrecord hleads _⟩
    · exact .inr ⟨count, _, hreached, huses⟩

theorem hub_reported_by_first_arrival :
    ∃ hub ∈ forkCorpus.modules, hub.path = ⟨"/hub.ts"⟩ ∧
      Reported (searchCorpus forkTree forkCorpus none forkSearch).results hub ∧
      ∃ barrel names,
        BarrelChain forkTree forkCorpus ⟨"/t.ts"⟩ barrel names ∧
        FirstArrival forkTree forkCorpus forkSearch.styles ⟨"/t.ts"⟩
          barrel.path names ∧
        UsesBarrel forkTree forkCorpus hub barrel.path names := by
  obtain ⟨hkeys, htarget, hub, hmember, hpath, hreported, hdirect⟩ :
      (forkCorpus.modules.map fun module => module.path.key).Nodup ∧
        forkCorpus.resolver.resolveTarget forkTree ⟨"/t.ts"⟩
          forkSearch.workingDirectory = ⟨"/t.ts"⟩ ∧
        ∃ hub ∈ forkCorpus.modules, hub.path = ⟨"/hub.ts"⟩ ∧
          (∃ importer ∈ (searchCorpus forkTree forkCorpus none
            forkSearch).results, importer.file = hub.path) ∧
          ¬∃ record ∈ hub.imports, forkCorpus.resolver.leadsTo forkTree hub.path
            record ⟨"/t.ts"⟩ = true := by
    decide +kernel
  have hsearched : forkSearch.modulePath = some ⟨"/t.ts"⟩ := rfl
  have hiff := search_reports_iff_first_arrival forkCorpus_loaded hkeys
    none hsearched
    (by intro style; cases style <;> rfl) hmember
  rw [htarget] at hiff
  exact ⟨hub, hmember, hpath, hreported,
    (hiff.1 hreported).resolve_left hdirect⟩

theorem search_misses_user_of_later_arrival :
    forkCorpus.Loaded forkTree ∧ forkCorpus.DistinctKeys ∧
      (∀ style, forkSearch.styles.allows style = true) ∧
      forkCorpus.resolver.resolveTarget forkTree ⟨"/t.ts"⟩
        forkSearch.workingDirectory = ⟨"/t.ts"⟩ ∧
      ∃ barrel names, BarrelChain forkTree forkCorpus ⟨"/t.ts"⟩ barrel names ∧
        ∃ user ∈ forkCorpus.modules,
          UsesBarrel forkTree forkCorpus user barrel.path names ∧
          ¬Reported (searchCorpus forkTree forkCorpus none forkSearch).results
            user := by
  obtain ⟨hkeys, htarget, inner, hinner, hfirst, hub, hhub, hnext, user, huser,
      huses, hmissed⟩ :
      (forkCorpus.modules.map fun module => module.path.key).Nodup ∧
        forkCorpus.resolver.resolveTarget forkTree ⟨"/t.ts"⟩
          forkSearch.workingDirectory = ⟨"/t.ts"⟩ ∧
        ∃ inner ∈ forkCorpus.modules,
          (forwardedNames forkTree forkCorpus.resolver inner ⟨"/t.ts"⟩
            none).isEmpty = false ∧
          ∃ hub ∈ forkCorpus.modules,
            (forwardedNames forkTree forkCorpus.resolver hub inner.path
              (some (forwardedNames forkTree forkCorpus.resolver inner ⟨"/t.ts"⟩
                none))).isEmpty = false ∧
            ∃ user ∈ forkCorpus.modules,
              (user.path.sameFile hub.path = false ∧
                ∃ record ∈ user.imports,
                  forkCorpus.resolver.leadsTo forkTree user.path record
                    hub.path = true ∧
                    usesAny record (forwardedNames forkTree forkCorpus.resolver
                      hub inner.path
                      (some (forwardedNames forkTree forkCorpus.resolver inner
                        ⟨"/t.ts"⟩ none))) = true) ∧
              ¬∃ importer ∈
                (searchCorpus forkTree forkCorpus none forkSearch).results,
                importer.file = user.path := by
    decide +kernel
  refine ⟨forkCorpus_loaded, hkeys, by intro style; cases style <;> rfl,
    htarget, hub, _, ?_, user, huser, huses, hmissed⟩
  exact .next (.first hinner hfirst) hhub hnext

end ImportAtlas
