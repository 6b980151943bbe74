import ImportAtlas.Proofs.ResultEntries
import ImportAtlas.Proofs.StyleHiding

/-!
# The imports of an entry

An entry takes its file and its first imports from the first file of its
identity that a search comes upon, as they are.  Only what comes behind them is
compared with what is there.  So imports that repeat an identity stay in an
entry if they come first, and files that differ in nothing but a script
extension share an entry, which shows the path of one of them and the imports
of all.
-/

namespace ImportAtlas

/-! ## Repetitions -/

private theorem exists_new_imports (known added : List ImportRecord) :
    ∃ new, addImports known added = known ++ new ∧ (identities new).Nodup ∧
      ∀ record ∈ new, record.identity ∉ identities known := by
  refine ⟨_, addImports_eq known added, nodup_keys_firstBy _ _, ?_⟩
  intro record hrecord
  simpa using (List.mem_filter.1 ((firstBy_sublist _ _).mem hrecord)).2

private theorem nodup_identities_append {known new : List ImportRecord}
    (hnew : (identities new).Nodup)
    (hother : ∀ record ∈ new, record.identity ∉ identities known) :
    (identities (known ++ new)).Nodup ↔ (identities known).Nodup := by
  rw [identities, List.map_append, List.nodup_append]
  refine ⟨And.left, fun hknown => ⟨hknown, hnew, ?_⟩⟩
  rintro identity hidentity _ hlisted rfl
  obtain ⟨record, hrecord, rfl⟩ := List.mem_map.1 hlisted
  exact hother record hrecord hidentity

/-! ## Sources of entries -/

section Sources

variable {tree : FileTree} {corpus : Corpus} {styles : StyleFilter}
    {query : Query}

private theorem exists_carrier_of_mem_discoveries {sighting : Importer}
    (h : sighting ∈ discoveries tree corpus styles query) :
    ∃ carrier : Carrier, sighting ∈ carrier.consumers tree corpus styles := by
  unfold discoveries at h
  split at h
  · obtain ⟨carrier, -, hconsumer⟩ := List.mem_flatMap.1 h
    exact ⟨carrier, hconsumer⟩
  · cases h

theorem exists_module_of_mem_sightings {sighting : Importer}
    (h : sighting ∈ sightings tree corpus styles query) :
    ∃ module ∈ corpus.modules, module.path = sighting.file ∧
      sighting.imports.Sublist module.imports := by
  rcases List.mem_append.1 h with hdirect | hdiscovered
  · obtain ⟨module, hmember, -, rfl⟩ := mem_directImporters.1 hdirect
    exact ⟨module, hmember, rfl, List.filter_sublist⟩
  · obtain ⟨carrier, hconsumer⟩ := exists_carrier_of_mem_discoveries hdiscovered
    obtain ⟨module, hmember, -, -, rfl⟩ := Carrier.mem_consumers.1 hconsumer
    exact ⟨module, hmember, rfl, List.filter_sublist.trans List.filter_sublist⟩

theorem mem_searchResults {entry : Importer} :
    entry ∈ searchResults tree corpus styles query ↔
      ∃ first, ((sightings tree corpus styles query).find? fun sighting =>
        sighting.file.key = entry.file.key) =
          some first ∧
        entry.file = first.file ∧
        entry.imports = addImports first.imports (importsUnder entry.file.key
          (sightings tree corpus styles query)) := by
  rw [searchResults_eq, addImporters_eq, List.mem_map]
  constructor
  · rintro ⟨first, hfirst, rfl⟩
    exact ⟨first, mem_firstBy.1 hfirst, rfl, rfl⟩
  · rintro ⟨first, hfound, hfile, himports⟩
    rw [hfile] at hfound himports
    refine ⟨first, mem_firstBy.2 hfound, ?_⟩
    rw [Importer.merge, ← himports, ← hfile]

/--
All imports of an entry that repeat the identity of another one belong to the
first sighting of its file, which is entered as it is.  So no import is
repeated in an entry if none is in the file at its path.
-/
theorem entry_repeats_imports_of_first_sighting_only {entry : Importer}
    (hentry : entry ∈ searchResults tree corpus styles query) :
    ∃ first new,
      ((sightings tree corpus styles query).find? fun sighting =>
          sighting.file.key = entry.file.key) = some first ∧
        entry.file = first.file ∧ entry.imports = first.imports ++ new ∧
        (identities new).Nodup ∧
        (∀ record ∈ new, record.identity ∉ identities first.imports) ∧
        ((identities entry.imports).Nodup ↔ (identities first.imports).Nodup) ∧
        ∃ module ∈ corpus.modules, module.path = entry.file ∧
          first.imports.Sublist module.imports ∧
          ((identities module.imports).Nodup →
            (identities entry.imports).Nodup) := by
  obtain ⟨first, hfound, hfile, hmerged⟩ := mem_searchResults.1 hentry
  obtain ⟨new, hnew, hnodup, hother⟩ :=
    exists_new_imports first.imports
      (importsUnder entry.file.key (sightings tree corpus styles query))
  have himports : entry.imports = first.imports ++ new := hmerged.trans hnew
  have hrepeats : (identities entry.imports).Nodup ↔
      (identities first.imports).Nodup := by
    rw [himports]
    exact nodup_identities_append hnodup hother
  obtain ⟨module, hmember, hpath, hsublist⟩ :=
    exists_module_of_mem_sightings (List.mem_of_find?_eq_some hfound)
  refine ⟨first, new, hfound, hfile, himports, hnodup, hother, hrepeats, module,
    hmember, hpath.trans hfile.symm, hsublist, ?_⟩
  intro hmodule
  exact hrepeats.2 (hmodule.sublist (hsublist.map _))

end Sources

theorem user_entry_without_repetition :
    ∃ entry ∈ searchResults oneLineTree oneLineCorpus {} targetQuery,
      entry.file = ⟨"/user.ts"⟩ ∧ (identities entry.imports).Nodup ∧
        ∃ module ∈ oneLineCorpus.modules, module.path = ⟨"/user.ts"⟩ ∧
          ¬(identities module.imports).Nodup := by
  obtain ⟨⟨entry, hentry, hfile⟩, hidentities, hrepeated⟩ :
      (∃ entry ∈ searchResults oneLineTree oneLineCorpus {} targetQuery,
        entry.file = ⟨"/user.ts"⟩) ∧
        ((sightings oneLineTree oneLineCorpus {} targetQuery).find?
            fun sighting =>
            sighting.file.key = (⟨"/user.ts"⟩ : Path).key).map
              (fun first => identities first.imports) =
          some [("./t", 1, .require)] ∧
        ∃ module ∈ oneLineCorpus.modules, module.path = ⟨"/user.ts"⟩ ∧
          ¬(identities module.imports).Nodup := by
    decide +kernel
  obtain ⟨first, -, hfound, -, -, -, -, hrepeats, -⟩ :=
    entry_repeats_imports_of_first_sighting_only hentry
  rw [hfile] at hfound
  rw [hfound, Option.map_some, Option.some.injEq] at hidentities
  refine ⟨entry, hentry, hfile, hrepeats.2 ?_, hrepeated⟩
  rw [hidentities]
  exact List.nodup_singleton _

def doubleTree : FileTree :=
  ⟨[("t.ts", .file (some "")),
    ("user.ts", .file (some
      "import \x7b A \x7d from './t'; import \x7b B \x7d from './t';"))]⟩

def doubleCorpus : Corpus :=
  ((Corpus.new ⟨"/"⟩ (Resolver.new none)).loadAll doubleTree
    [⟨"/t.ts"⟩, ⟨"/user.ts"⟩] defaultBatchSize).1

theorem direct_importer_repeats_import :
    doubleCorpus.Loaded doubleTree ∧ doubleCorpus.DistinctKeys ∧
      ∃ entry ∈ (searchCorpus doubleTree doubleCorpus none forkSearch).results,
        identities entry.imports =
          [("./t", 1, .static), ("./t", 1, .static)] := by
  refine ⟨(Corpus.loaded_new doubleTree _ _).loadAll _ _, ?_⟩
  decide +kernel

/-! ## Files of one identity -/

section Shared

variable {tree : FileTree} {corpus : Corpus} {styles : StyleFilter}
    {query : Query}

/-- The first file of an identity with matching imports, in path order. -/
def firstMatch? (corpus : Corpus) (styles : StyleFilter) (query : Query)
    (key : String) : Option FileModule :=
  corpus.modules.find? fun module =>
    module.path.key = key && !(matchingImports styles query module).isEmpty

theorem firstMatch?_eq_some {key : String} {module : FileModule}
    (h : firstMatch? corpus styles query key = some module) :
    module ∈ corpus.modules ∧ module.path.key = key ∧
      matchingImports styles query module ≠ [] := by
  have hmatch := List.find?_some h
  rw [Bool.and_eq_true, decide_eq_true_eq, Bool.not_eq_true',
    List.isEmpty_eq_false_iff] at hmatch
  exact ⟨List.mem_of_find?_eq_some h, hmatch⟩

private theorem exists_firstMatch? {module : FileModule}
    (hmember : module ∈ corpus.modules)
    (hmatch : matchingImports styles query module ≠ []) :
    ∃ first, firstMatch? corpus styles query module.path.key = some first := by
  rw [← Option.isSome_iff_exists, firstMatch?, List.find?_isSome]
  exact ⟨module, hmember, by simp [hmatch]⟩

private theorem find?_directImporters {key : String} {first : FileModule}
    (h : firstMatch? corpus styles query key = some first) :
    ((directImporters corpus styles query).find? fun sighting =>
      sighting.file.key = key) =
      some ⟨first.path, matchingImports styles query first⟩ := by
  obtain ⟨-, -, hmatch⟩ := firstMatch?_eq_some h
  have htest :
        (fun module : FileModule =>
          (importerOf? module.path (matchingImports styles query module)).any
        fun sighting => sighting.file.key = key) =
      fun module =>
        module.path.key = key &&
          !(matchingImports styles query module).isEmpty := by
    funext module
    cases hempty : (matchingImports styles query module).isEmpty <;>
      simp [importerOf?, hempty]
  rw [directImporters_eq, List.find?_filterMap, htest]
  exact Option.bind_eq_some_iff.2 ⟨first, h,
    importerOf?_eq_some.2 ⟨hmatch, rfl⟩⟩

theorem exists_entry_of_match {module : FileModule}
    (hmember : module ∈ corpus.modules) {record : ImportRecord}
    (hrecord : record ∈ matchingImports styles query module) :
    ∃ first, firstMatch? corpus styles query module.path.key = some first ∧
      ∃ entry ∈ searchResults tree corpus styles query,
        entry.file = first.path ∧
        matchingImports styles query first <+: entry.imports ∧
        record.identity ∈ identities entry.imports := by
  have hmatch := List.ne_nil_of_mem hrecord
  obtain ⟨first, hfirst⟩ := exists_firstMatch? hmember hmatch
  obtain ⟨-, hkey, -⟩ := firstMatch?_eq_some hfirst
  have hsighted : ((sightings tree corpus styles query).find? fun sighting =>
      sighting.file.key = first.path.key) =
      some ⟨first.path, matchingImports styles query first⟩ := by
    rw [sightings, List.find?_append, hkey, find?_directImporters hfirst]
    rfl
  have hsighting : ⟨module.path, matchingImports styles query module⟩ ∈
      sightings tree corpus styles query :=
    List.mem_append_left _ (mem_directImporters.2 ⟨module, hmember,
      hmatch, rfl⟩)
  have hlisted : record ∈ importsUnder first.path.key
      (sightings tree corpus styles query) := by
    rw [hkey]
    exact mem_importsUnder.2 ⟨_, hsighting, rfl, hrecord⟩
  have hentry : Importer.merge ⟨first.path, matchingImports styles query first⟩
      (importsUnder first.path.key (sightings tree corpus styles query)) ∈
      searchResults tree corpus styles query :=
    mem_searchResults.2 ⟨_, hsighted, rfl, rfl⟩
  exact ⟨first, hfirst, _, hentry, rfl, prefix_addImports _ _,
    mem_identities_addImports.2 (.inr (List.mem_map_of_mem hlisted))⟩

theorem exists_module_at_entry {entry : Importer}
    (hentry : entry ∈ searchResults tree corpus styles query) :
    ∃ module ∈ corpus.modules, module.path = entry.file := by
  obtain ⟨first, hfound, hfile, -⟩ := mem_searchResults.1 hentry
  obtain ⟨module, hmember, hpath, -⟩ :=
    exists_module_of_mem_sightings (List.mem_of_find?_eq_some hfound)
  exact ⟨module, hmember, hpath.trans hfile.symm⟩

theorem exists_module_of_mem_entry {entry : Importer}
    (hentry : entry ∈ searchResults tree corpus styles query)
    {record : ImportRecord} (hrecord : record ∈ entry.imports) :
    ∃ module ∈ corpus.modules, module.path.key = entry.file.key ∧
      record ∈ module.imports := by
  obtain ⟨first, hfound, hfile, hmerged⟩ := mem_searchResults.1 hentry
  have hsighted : ∃ sighting ∈ sightings tree corpus styles query,
      sighting.file.key = entry.file.key ∧ record ∈ sighting.imports := by
    rw [hmerged] at hrecord
    rcases mem_addImports hrecord with hfirst | hlisted
    · exact ⟨first, List.mem_of_find?_eq_some hfound, by rw [hfile], hfirst⟩
    · exact mem_importsUnder.1 hlisted
  obtain ⟨sighting, hsighting, hsame, himport⟩ := hsighted
  obtain ⟨module, hmember, hpath, hsublist⟩ :=
    exists_module_of_mem_sightings hsighting
  refine ⟨module, hmember, ?_, hsublist.mem himport⟩
  rw [hpath]
  exact hsame

/--
A match in any file of a corpus is listed, in one entry for all files of its
identity: under the path of the first of them that has matches, and the matches
of that file come first.  Every import in an entry is one of the files of its
identity.  So a file that shares its identity with no other one has an entry of
its own with its matches, and nothing of other files is in it.
-/
theorem files_of_one_identity_share_an_entry (tree : FileTree) (corpus : Corpus)
    (styles : StyleFilter) (query : Query) :
    (∀ module ∈ corpus.modules, ∀ record ∈ matchingImports styles query module,
      ∃ first, firstMatch? corpus styles query module.path.key = some first ∧
        ∃ entry ∈ searchResults tree corpus styles query,
          (∀ other ∈ searchResults tree corpus styles query,
            other.file.sameFile module.path = true → other = entry) ∧
            entry.file = first.path ∧
            matchingImports styles query first <+: entry.imports ∧
            record.identity ∈ identities entry.imports) ∧
      (∀ entry ∈ searchResults tree corpus styles query,
        (∃ module ∈ corpus.modules, module.path = entry.file) ∧
          ∀ record ∈ entry.imports, ∃ module ∈ corpus.modules,
            module.path.sameFile entry.file = true ∧ record ∈ module.imports) ∧
      ∀ module ∈ corpus.modules,
        (∀ other ∈ corpus.modules, other.path.sameFile module.path = true →
          other = module) →
          (∀ record ∈ matchingImports styles query module,
            ∃ entry ∈ searchResults tree corpus styles query,
              entry.file = module.path ∧ record ∈ entry.imports) ∧
          ∀ entry ∈ searchResults tree corpus styles query,
            entry.file.sameFile module.path = true →
            entry.file = module.path ∧
            ∀ record ∈ entry.imports, record ∈ module.imports := by
  simp only [Path.sameFile_iff]
  refine ⟨?_, ?_, ?_⟩
  · intro module hmember record hrecord
    obtain ⟨first, hfirst, entry, hentry, hfile, hprefix, hidentity⟩ :=
      exists_entry_of_match hmember hrecord
    obtain ⟨-, hkey, -⟩ := firstMatch?_eq_some hfirst
    refine ⟨first, hfirst, entry, hentry, ?_, hfile, hprefix, hidentity⟩
    intro other hother hsame
    have hkeys := nodup_importerKeys_searchResults tree corpus styles query
    apply List.inj_on_of_nodup_map hkeys hother hentry
    rw [hsame, hfile, hkey]
  · intro entry hentry
    exact ⟨exists_module_at_entry hentry, fun record hrecord =>
      exists_module_of_mem_entry hentry hrecord⟩
  · intro module hmember halone
    refine ⟨fun record hrecord => ?_, fun entry hentry hsame =>
      ⟨?_, fun record hrecord => ?_⟩⟩
    · obtain ⟨first, hfirst, entry, hentry, hfile, hprefix, -⟩ :=
        exists_entry_of_match hmember hrecord
      obtain ⟨hother, hkey, -⟩ := firstMatch?_eq_some hfirst
      rw [halone first hother hkey] at hfile hprefix
      exact ⟨entry, hentry, hfile, hprefix.subset hrecord⟩
    · obtain ⟨other, hother, hpath⟩ := exists_module_at_entry hentry
      rw [← hpath] at hsame ⊢
      rw [halone other hother hsame]
    · obtain ⟨other, hother, hkey, himport⟩ :=
        exists_module_of_mem_entry hentry hrecord
      rw [← halone other hother (hkey.trans hsame)]
      exact himport

end Shared

def twinTree : FileTree :=
  ⟨[("a.ts", .file (some "import \x7b A \x7d from './t';")),
    ("a.tsx", .file (some "import \x7b A \x7d from './t';\nimport './t';")),
    ("t.ts", .file (some ""))]⟩

def twinCorpus : Corpus :=
  ((Corpus.new ⟨"/"⟩ (Resolver.new none)).loadAll twinTree
    [⟨"/a.ts"⟩, ⟨"/a.tsx"⟩, ⟨"/t.ts"⟩] defaultBatchSize).1

theorem import_of_second_twin_listed_under_first :
    ∃ entry ∈ searchResults twinTree twinCorpus {} targetQuery,
      entry.file = ⟨"/a.ts"⟩ ∧ ("./t", 2, .static) ∈ identities entry.imports ∧
        ∀ other ∈ searchResults twinTree twinCorpus {} targetQuery,
          other.file.sameFile ⟨"/a.tsx"⟩ = true → other = entry := by
  obtain ⟨⟨module, hmember, hpath, record, hrecord, hidentity⟩, hfirst⟩ :
      (∃ module ∈ twinCorpus.modules, module.path = ⟨"/a.tsx"⟩ ∧
          ∃ record ∈ matchingImports {} targetQuery module, record.identity =
            ("./t", 2, .static)) ∧
        (firstMatch? twinCorpus {} targetQuery (⟨"/a.tsx"⟩ : Path).key).map
          FileModule.path = some ⟨"/a.ts"⟩ := by
    decide +kernel
  obtain ⟨first, hfound, entry, hentry, hunique, hfile, -, hlisted⟩ :=
    (files_of_one_identity_share_an_entry twinTree twinCorpus {} targetQuery).1
      module hmember record hrecord
  rw [hpath] at hfound hunique
  rw [hfound, Option.map_some, Option.some.injEq] at hfirst
  rw [hidentity] at hlisted
  exact ⟨entry, hentry, hfile.trans hfirst, hlisted, hunique⟩

/-- The second importer has no entry of its own, and the entry of the first one
lists an import of the second. -/
theorem twins_lost_and_mixed_up :
    twinCorpus.Loaded twinTree ∧
      (∃ module ∈ twinCorpus.modules,
        matchingImports forkSearch.styles
          (Query.build twinTree twinCorpus none forkSearch) module ≠ [] ∧
          ∀ entry ∈ (searchCorpus twinTree twinCorpus none forkSearch).results,
            entry.file ≠ module.path) ∧
      ∃ entry ∈ (searchCorpus twinTree twinCorpus none forkSearch).results,
        ∃ record ∈ entry.imports,
        ∀ module ∈ twinCorpus.modules, module.path = entry.file →
          record ∉ module.imports := by
  refine ⟨(Corpus.loaded_new twinTree _ _).loadAll _ _, ?_⟩
  decide +kernel

end ImportAtlas
