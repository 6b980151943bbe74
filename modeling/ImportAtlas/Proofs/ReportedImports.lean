import ImportAtlas.Proofs.SearchReach

/-!
# Reported imports

A search merges what it finds by the identities of files, and within a file by
the identities of imports.  On the level of these identities merging is a
union: an import is reported exactly when it matches directly or uses a barrel
that the walk follows.
-/

namespace ImportAtlas

/-- Imports of one file that agree in specifier, line and style are one import.
-/
abbrev ImportIdentity := String × Nat × ImportStyle

def identities (records : List ImportRecord) : List ImportIdentity :=
  records.map ImportRecord.identity

def Reports (importers : List Importer) (key : String)
    (identity : ImportIdentity) : Prop :=
  ∃ importer ∈ importers, importer.file.key = key ∧
    identity ∈ identities importer.imports

instance (importers : List Importer) (key : String)
    (identity : ImportIdentity) :
    Decidable (Reports importers key identity) :=
  inferInstanceAs (Decidable (∃ importer ∈ importers, _))

variable {key : String} {identity : ImportIdentity}

/-! ## Merging -/

theorem mem_identities_addImports {known added : List ImportRecord} :
    identity ∈ identities (addImports known added) ↔
      identity ∈ identities known ∨ identity ∈ identities added := by
  induction added generalizing known with
  | nil => simp [addImports, identities]
  | cons record added ih =>
      rw [addImports, List.foldl_cons, ← addImports, ih]
      split
      · rename_i hknown
        obtain ⟨other, hother, hsame⟩ := List.any_eq_true.1 hknown
        have hlisted : record.identity ∈ identities known :=
          List.mem_map.2 ⟨other, hother, by simpa using hsame⟩
        simp only [identities, List.map_cons, List.mem_cons] at hlisted ⊢
        grind
      · simp [identities, or_assoc]

theorem reports_cons {importer : Importer} {importers : List Importer} :
    Reports (importer :: importers) key identity ↔
      importer.file.key = key ∧ identity ∈ identities importer.imports ∨
      Reports importers key identity := by
  simp [Reports]

private theorem reports_addImporter {added : Importer}
    {importers : List Importer} :
    Reports (addImporter added importers) key identity ↔
      Reports importers key identity ∨ added.file.key = key ∧
      identity ∈ identities added.imports := by
  induction importers with
  | nil => simp [addImporter, Reports]
  | cons importer importers ih =>
      rw [addImporter]
      split
      · rename_i hsame
        rw [reports_cons, reports_cons, Importer.merge,
          mem_identities_addImports, hsame]
        grind
      · rw [reports_cons, reports_cons, ih, or_assoc]

theorem reports_addImporters {importers added : List Importer} :
    Reports (addImporters importers added) key identity ↔
      Reports importers key identity ∨ Reports added key identity := by
  induction added generalizing importers with
  | nil => simp [addImporters, Reports]
  | cons first added ih =>
    rw [addImporters_cons, ih, reports_addImporter, reports_cons, or_assoc]

private theorem addImports_ne_nil {known added : List ImportRecord}
    (h : known ≠ []) : addImports known added ≠ [] := by
  obtain ⟨record, hrecord⟩ := List.exists_mem_of_ne_nil known h
  have hlisted : record.identity ∈ identities (addImports known added) :=
    mem_identities_addImports.2 (.inl (List.mem_map_of_mem hrecord))
  intro hnil
  simp [hnil, identities] at hlisted

private theorem imports_ne_nil_addImporter {added : Importer}
    {importers : List Importer}
    (h : ∀ importer ∈ importers, importer.imports ≠ [])
    (hadded : added.imports ≠ []) :
    ∀ importer ∈ addImporter added importers, importer.imports ≠ [] := by
  induction importers with
  | nil => simpa [addImporter] using hadded
  | cons first importers ih =>
      rw [List.forall_mem_cons] at h
      rw [addImporter]
      split
      · exact List.forall_mem_cons.2 ⟨addImports_ne_nil h.1, h.2⟩
      · exact List.forall_mem_cons.2 ⟨h.1, ih h.2⟩

theorem imports_ne_nil_addImporters {importers added : List Importer}
    (h : ∀ importer ∈ importers, importer.imports ≠ [])
    (hadded : ∀ importer ∈ added, importer.imports ≠ []) :
    ∀ importer ∈ addImporters importers added, importer.imports ≠ [] := by
  induction added generalizing importers with
  | nil => exact h
  | cons first added ih =>
      rw [List.forall_mem_cons] at hadded
      exact ih (imports_ne_nil_addImporter h hadded.1) hadded.2

/-! ## What is merged -/

variable {tree : FileTree} {corpus : Corpus} {styles : StyleFilter}
    {target : Path}

theorem reports_directImporters {query : Query} :
    Reports (directImporters corpus styles query) key identity ↔
      ∃ module ∈ corpus.modules, module.path.key = key ∧
        ∃ record ∈ module.imports, record.identity = identity ∧
          styles.allows record.style = true ∧
          query.accepts record = true := by
  simp only [Reports, identities, mem_directImporters, List.mem_map]
  constructor
  · rintro ⟨importer, ⟨module, hmember, -, rfl⟩, hkey, record,
      hrecord, hidentity⟩
    simp only [matchingImports, List.mem_filter, Bool.and_eq_true] at hrecord
    exact ⟨module, hmember, hkey, record, hrecord.1, hidentity, hrecord.2⟩
  · rintro ⟨module, hmember, hkey, record, hrecord, hidentity, haccepted⟩
    have hmatching : record ∈ matchingImports styles query module := by
      simp [matchingImports, hrecord, haccepted]
    exact ⟨_, ⟨module, hmember, List.ne_nil_of_mem hmatching, rfl⟩, hkey,
      record, hmatching, hidentity⟩

theorem reports_consumers {carrier : Carrier} :
    Reports (carrier.consumers tree corpus styles) key identity ↔
      ∃ module ∈ corpus.modules, module.path.key = key ∧
        module.path.sameFile carrier.barrel = false ∧
        ∃ record ∈ module.imports, record.identity = identity ∧
          styles.allows record.style = true ∧
          corpus.resolver.leadsTo tree module.path record
            carrier.barrel = true ∧
          usesAny record carrier.names = true := by
  simp only [Reports, identities, Carrier.mem_consumers, List.mem_map]
  constructor
  · rintro ⟨importer, ⟨module, hmember, hother, -, rfl⟩, hkey, record,
      hrecord, hidentity⟩
    obtain ⟨himport, hleads, huses, hallowed⟩ := Carrier.mem_uses.1 hrecord
    exact ⟨module, hmember, hkey, hother, record, himport, hidentity, hallowed,
      hleads, huses⟩
  · rintro ⟨module, hmember, hkey, hother, record, hrecord, hidentity, hallowed,
      hleads, huses⟩
    have hused := Carrier.mem_uses.2 ⟨hrecord, hleads, huses, hallowed⟩
    exact ⟨_, ⟨module, hmember, hother, List.ne_nil_of_mem hused, rfl⟩, hkey,
      record, hused, hidentity⟩

/-! ## Searches -/

theorem reports_traceBarrels (hpaths : corpus.DistinctPaths)
    (direct : List Importer) :
    Reports (traceBarrels tree corpus styles target direct) key identity ↔
      Reports direct key identity ∨
        ∃ count,
          ∃ carrier ∈ (Carrier.rounds tree corpus styles
            (directCarriers tree corpus target direct) count).1,
          Reports (carrier.consumers tree corpus styles) key identity :=
  exists_mem_traceBarrels tree styles hpaths target direct fun _ _ =>
    reports_addImporters

private theorem imports_ne_nil_traceBarrels (hpaths : corpus.DistinctPaths)
    {direct : List Importer} (h : ∀ importer ∈ direct, importer.imports ≠ []) :
    ∀ importer ∈ traceBarrels tree corpus styles target direct,
      importer.imports ≠ [] := by
  rw [traceBarrels_eq tree styles hpaths target direct (Nat.le_refl _),
    Trace.afterRounds]
  refine imports_ne_nil_addImporters h fun importer himporter => ?_
  obtain ⟨carrier, -, hconsumer⟩ := List.mem_flatMap.1 himporter
  obtain ⟨module, -, -, hused, rfl⟩ := Carrier.mem_consumers.1 hconsumer
  exact hused

theorem imports_ne_nil_searchResults (hpaths : corpus.DistinctPaths)
    (query : Query) :
    ∀ importer ∈ searchResults tree corpus styles query,
      importer.imports ≠ [] := by
  have hdirect : ∀ importer ∈ addImporters []
      (directImporters corpus styles query), importer.imports ≠ [] := by
    refine imports_ne_nil_addImporters (by simp) fun importer himporter => ?_
    obtain ⟨module, -, hmatching, rfl⟩ := mem_directImporters.1 himporter
    exact hmatching
  unfold searchResults
  split
  · exact imports_ne_nil_traceBarrels hpaths hdirect
  · exact hdirect

theorem reports_searchResults_of_direct (hpaths : corpus.DistinctPaths)
    {query : Query}
    (h : Reports (directImporters corpus styles query) key identity) :
    Reports (searchResults tree corpus styles query) key identity := by
  have hdirect : Reports (addImporters [] (directImporters corpus styles query))
      key identity :=
    reports_addImporters.2 (.inr h)
  unfold searchResults
  split
  · exact (reports_traceBarrels hpaths _).2 (.inl hdirect)
  · exact hdirect

end ImportAtlas
