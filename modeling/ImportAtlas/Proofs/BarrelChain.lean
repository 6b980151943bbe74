import ImportAtlas.Proofs.BarrelWalk
import ImportAtlas.Proofs.LoadedCorpus

/-!
# Chains of barrels

A chain of barrels leads away from a target: its first module passes on
something of the target, and every later one passes on some of the names that
arrive at the module before it.  Everything that a search for a target finds is
justified by the target itself or by such a chain.
-/

namespace ImportAtlas

/-- The last module of a chain of barrels, with the names that arrive there. -/
inductive BarrelChain (tree : FileTree) (corpus : Corpus) (target : Path) :
    FileModule → NameSet → Prop
  | first {barrel : FileModule} (hmember : barrel ∈ corpus.modules)
      (hnames : (forwardedNames tree corpus.resolver barrel target
        none).isEmpty = false) :
      BarrelChain tree corpus target barrel
        (forwardedNames tree corpus.resolver barrel target none)
  | next {inner barrel : FileModule} {names : NameSet}
      (hinner : BarrelChain tree corpus target inner names)
      (hmember : barrel ∈ corpus.modules)
      (hnames : (forwardedNames tree corpus.resolver barrel inner.path
        (some names)).isEmpty = false) :
      BarrelChain tree corpus target barrel
        (forwardedNames tree corpus.resolver barrel inner.path (some names))

/-- An import in a file with the given identity that a search for the target
may report. -/
structure Justified (tree : FileTree) (corpus : Corpus) (styles : StyleFilter)
    (target : Path) (key : String) (record : ImportRecord) : Prop where
  allowed : styles.allows record.style = true
  origin : ∃ module ∈ corpus.modules, module.path.key = key ∧
    record ∈ module.imports ∧
    (corpus.resolver.leadsTo tree module.path record target = true ∨
      ∃ barrel names, BarrelChain tree corpus target barrel names ∧
        corpus.resolver.leadsTo tree module.path record barrel.path = true ∧
        usesAny record names = true)

variable {tree : FileTree} {corpus : Corpus} {styles : StyleFilter}
    {target : Path}

/-! ## Direct imports -/

theorem Resolver.leadsTo_of_resolved {resolver : Resolver} {file path : Path}
    {record : ImportRecord}
    {found : Target} (hresolved : record.resolved = some found)
    (hfile : found.isFile path = true) :
    resolver.leadsTo tree file record path = true := by
  simp [Resolver.leadsTo, Resolver.targetOf, hresolved, hfile]

theorem Query.exists_module_of_mem_siblingBarrels {index : Path}
    {names : NameSet} (h : (index, names) ∈ siblingBarrels tree corpus target) :
    ∃ barrel ∈ corpus.modules,
      (forwardedNames tree corpus.resolver barrel target none).isEmpty = false ∧
      names = forwardedNames tree corpus.resolver barrel target none ∧
      barrel.path.key = index.key := by
  obtain ⟨path, -, hpath⟩ := List.mem_filterMap.1 h
  obtain ⟨barrel, hbarrel, hnames⟩ := Option.bind_eq_some_iff.1 hpath
  simp only [Option.ite_none_left_eq_some, Option.some.injEq, Prod.mk.injEq]
    at hnames
  obtain ⟨hnonempty, rfl, rfl⟩ := hnames
  obtain ⟨hmember, hsame⟩ := Corpus.mem_of_module? hbarrel
  exact ⟨barrel, hmember, by simpa using hnonempty, rfl,
    Path.key_eq_of_same hsame⟩

theorem Query.leadsTo_or_uses_of_targetMatches {record : ImportRecord}
    (h : targetMatches (siblingBarrels tree corpus target) target record = true)
    (file : Path) :
    corpus.resolver.leadsTo tree file record target = true ∨
      ∃ barrel ∈ corpus.modules,
        (forwardedNames tree corpus.resolver barrel target none).isEmpty =
          false ∧
        corpus.resolver.leadsTo tree file record barrel.path = true ∧
        usesAny record
          (forwardedNames tree corpus.resolver barrel target none) = true := by
  unfold Query.targetMatches at h
  split at h
  · contradiction
  · rename_i found hresolved
    rcases Bool.or_eq_true_iff.1 h with hdirect | hsibling
    · exact .inl (Resolver.leadsTo_of_resolved hresolved hdirect)
    · obtain ⟨⟨index, names⟩, hindex, huses⟩ := List.any_eq_true.1 hsibling
      obtain ⟨barrel, hbarrel, hnonempty, rfl, hkey⟩ :=
        Query.exists_module_of_mem_siblingBarrels hindex
      simp only [Bool.and_eq_true, ← Target.isFile_congr hkey] at huses
      exact .inr ⟨barrel, hbarrel, hnonempty,
        Resolver.leadsTo_of_resolved hresolved huses.1, huses.2⟩

private theorem justified_of_targetMatches {module : FileModule}
    {record : ImportRecord} (hmember : module ∈ corpus.modules)
    (hrecord : record ∈ module.imports)
    (hallowed : styles.allows record.style = true)
    (h : Query.targetMatches (Query.siblingBarrels tree corpus target) target
      record = true) :
    Justified tree corpus styles target module.path.key record := by
  refine ⟨hallowed, module, hmember, rfl, hrecord, ?_⟩
  rcases Query.leadsTo_or_uses_of_targetMatches h module.path
    with hdirect | ⟨barrel, hbarrel, hnonempty, huses⟩
  · exact .inl hdirect
  · exact .inr ⟨barrel, _, .first hbarrel hnonempty, huses⟩

theorem Query.build_of_modulePath (name : Option String) {options : ScanOptions}
    {path : Path} (h : options.modulePath = some path) :
    build tree corpus name options =
      ⟨name,
        some (corpus.resolver.resolveTarget tree path options.workingDirectory),
        siblingBarrels tree corpus (corpus.resolver.resolveTarget tree path
          options.workingDirectory)⟩ := by
  simp [build, h]

theorem Query.accepts_of_target (name : Option String) (target : Path)
    (siblings : List (Path × NameSet)) (record : ImportRecord) :
    accepts ⟨name, some target, siblings⟩ record =
      targetMatches siblings target record := rfl

/-! ## The walk -/

def Pending.Arrived (tree : FileTree) (corpus : Corpus) (target : Path)
    (pending : Pending) : Prop :=
  pending.via = target ∧ pending.carried = none ∨
    ∃ inner names, BarrelChain tree corpus target inner names ∧
      inner.path.key = pending.via.key ∧
      pending.carried = some names

structure Trace.Sound (tree : FileTree) (corpus : Corpus) (styles : StyleFilter)
    (target : Path) (trace : Trace) : Prop where
  pending : ∀ pending ∈ trace.pending, pending.Arrived tree corpus target
  found : ∀ importer ∈ trace.found, ∀ record ∈ importer.imports,
    Justified tree corpus styles target importer.file.key record

theorem Pending.Arrived.chain {pending : Pending} {carrier : Carrier}
    (h : pending.Arrived tree corpus target)
    (hcarrier : pending.carrier? tree corpus = some carrier) :
    ∃ barrel, BarrelChain tree corpus target barrel carrier.names ∧
      barrel.path.key = carrier.barrel.key := by
  obtain ⟨barrel, hmember, hsame, hnames, hnonempty⟩ :=
    exists_module_of_carrier? hcarrier
  refine ⟨barrel, ?_,
    by rw [carrier?_barrel hcarrier, Path.key_eq_of_same hsame]⟩
  rw [hnames] at hnonempty ⊢
  rcases h with ⟨hvia, hcarried⟩ | ⟨inner, names, hinner, hkey, hcarried⟩
  · rw [hvia, hcarried] at hnonempty ⊢
    exact .first hmember hnonempty
  · rw [hcarried, ← forwardedNames_congr hkey] at hnonempty ⊢
    exact .next hinner hmember hnonempty

private theorem Carrier.justified_of_mem_consumers {carrier : Carrier}
    {barrel : FileModule}
    (hchain : BarrelChain tree corpus target barrel carrier.names)
    (hkey : barrel.path.key = carrier.barrel.key) {importer : Importer}
    (himporter : importer ∈ carrier.consumers tree corpus styles)
    {record : ImportRecord} (hrecord : record ∈ importer.imports) :
    Justified tree corpus styles target importer.file.key record := by
  obtain ⟨module, hmember, -, -, rfl⟩ := mem_consumers.1 himporter
  obtain ⟨himport, hleads, huses, hallowed⟩ := mem_uses.1 hrecord
  rw [← Resolver.leadsTo_congr hkey] at hleads
  exact ⟨hallowed, module, hmember, rfl, himport,
    .inr ⟨barrel, carrier.names, hchain, hleads, huses⟩⟩

theorem Trace.Sound.step {trace : Trace}
    (h : trace.Sound tree corpus styles target) :
    (trace.step tree corpus styles).Sound tree corpus styles target := by
  cases hpending : trace.pending with
  | nil =>
      rw [step_of_nil tree corpus styles hpending]
      exact h
  | cons next rest =>
      have hrest : ∀ pending ∈ rest, pending.Arrived tree corpus target := by
        intro pending hmem
        exact h.pending pending
          (by rw [hpending]; exact List.mem_cons_of_mem next hmem)
      rcases step_cases tree corpus styles hpending
        with hstep | ⟨carrier, hcarrier, -, hstep⟩ <;> rw [hstep]
      · exact ⟨hrest, h.found⟩
      · have hnext :=
          h.pending next (by rw [hpending]; exact List.mem_cons_self)
        obtain ⟨barrel, hchain, hkey⟩ := hnext.chain hcarrier
        constructor
        · intro pending hmem
          rcases List.mem_append.1 hmem with hmem | hmem
          · exact hrest pending hmem
          · obtain ⟨consumer, -, rfl⟩ := List.mem_map.1 hmem
            exact .inr ⟨barrel, carrier.names, hchain, hkey, rfl⟩
        · refine forall_import_addImporters h.found ?_
          intro importer himporter record hrecord
          exact Carrier.justified_of_mem_consumers hchain hkey himporter hrecord

private theorem traceBarrels_justified {direct : List Importer}
    (h : ∀ importer ∈ direct, ∀ record ∈ importer.imports,
      Justified tree corpus styles target importer.file.key record) :
    ∀ importer ∈ traceBarrels tree corpus styles target direct,
      ∀ record ∈ importer.imports,
      Justified tree corpus styles target importer.file.key record := by
  have hstart : (Trace.start target direct).Sound tree corpus
      styles target := by
    refine ⟨?_, h⟩
    intro pending hpending
    obtain ⟨importer, -, rfl⟩ := List.mem_map.1 hpending
    exact .inl ⟨rfl, rfl⟩
  rw [traceBarrels_eq_run]
  exact (Trace.run_invariant tree corpus styles (p :=
    Trace.Sound tree corpus styles target)
    (fun _ => Trace.Sound.step) hstart (traceSteps corpus direct)).found

/-! ## Searches -/

/--
Every import that a search for a file reports has an allowed style, belongs to
a module of the corpus with the identity of the reported file, and leads to the
target or to the end of a chain of barrels that carries one of its names.
-/
theorem searchCorpus_results_justified (name : Option String)
    {options : ScanOptions} {path : Path}
    (hpath : options.modulePath = some path) {importer : Importer}
    {record : ImportRecord}
    (himporter : importer ∈ (searchCorpus tree corpus name options).results)
    (hrecord : record ∈ importer.imports) :
    options.styles.allows record.style = true ∧
      ∃ module ∈ corpus.modules, module.path.key = importer.file.key ∧
        record ∈ module.imports ∧
        (corpus.resolver.leadsTo tree module.path record
            (corpus.resolver.resolveTarget tree path options.workingDirectory) =
            true ∨
          ∃ barrel names,
            BarrelChain tree corpus (corpus.resolver.resolveTarget tree path
              options.workingDirectory) barrel names ∧
            corpus.resolver.leadsTo tree module.path record barrel.path = true ∧
            usesAny record names = true) := by
  simp only [searchCorpus, searchResults, Query.build_of_modulePath name hpath]
    at himporter
  have hjustified := traceBarrels_justified ?_ importer himporter record hrecord
  · exact ⟨hjustified.allowed, hjustified.origin⟩
  · refine forall_import_addImporters (by simp) ?_
    intro direct hdirect found hfound
    obtain ⟨module, hmember, -, rfl⟩ := mem_directImporters.1 hdirect
    obtain ⟨himport, hmatch⟩ := List.mem_filter.1 hfound
    rw [Bool.and_eq_true, Query.accepts_of_target] at hmatch
    exact justified_of_targetMatches hmember himport hmatch.1 hmatch.2

def forkSearch : ScanOptions :=
  { workingDirectory := ⟨"/"⟩, modulePath := some ⟨"/t.ts"⟩ }

theorem hub_import_justified :
    ∃ importer ∈ (searchCorpus forkTree forkCorpus none forkSearch).results,
      importer.file = ⟨"/hub.ts"⟩ ∧
      ∃ record ∈ importer.imports,
        forkSearch.styles.allows record.style = true ∧
        ∃ module ∈ forkCorpus.modules, module.path.key = importer.file.key ∧
          record ∈ module.imports ∧
          ∃ barrel names,
            BarrelChain forkTree forkCorpus
              (forkCorpus.resolver.resolveTarget forkTree ⟨"/t.ts"⟩
                forkSearch.workingDirectory) barrel names ∧
            forkCorpus.resolver.leadsTo forkTree module.path record
              barrel.path = true ∧
            usesAny record names = true := by
  obtain ⟨importer, himporter, hfile, record, hrecord, hdirect⟩ :
      ∃ importer ∈ (searchCorpus forkTree forkCorpus none forkSearch).results,
        importer.file = ⟨"/hub.ts"⟩ ∧
        ∃ record ∈ importer.imports, ∀ module ∈ forkCorpus.modules,
          ¬forkCorpus.resolver.leadsTo forkTree module.path record
            (forkCorpus.resolver.resolveTarget forkTree ⟨"/t.ts"⟩
              forkSearch.workingDirectory) = true := by
    decide +kernel
  obtain ⟨hallowed, module, hmember, hkey, himport, hjustified⟩ :=
    searchCorpus_results_justified none (show forkSearch.modulePath =
      some ⟨"/t.ts"⟩ from rfl) himporter hrecord
  exact ⟨importer, himporter, hfile, record, hrecord, hallowed, module, hmember,
    hkey, himport, hjustified.resolve_left (hdirect module hmember)⟩

end ImportAtlas
