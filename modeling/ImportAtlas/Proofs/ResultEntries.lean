import ImportAtlas.Proofs.ReportMerge
import ImportAtlas.Proofs.WalkTermination

/-!
# The entries of a search

A search comes upon files one after the other, first the direct importers and
then the users of barrels, and merges what it comes upon.  Merging keeps one
entry for every identity: the first importer that has it, with the imports of
all later ones behind its own.  So the walk through barrels completes the
entries of the direct importers where they stand, and puts new entries behind
them in the order in which it finds their files.
-/

namespace ImportAtlas

/-! ## Merged imports -/

theorem addImports_eq (known added : List ImportRecord) :
    addImports known added =
      known ++ firstBy ImportRecord.identity (added.filter fun record =>
        record.identity ∉ identities known) := by
  induction added using List.reverseRecOn with
  | nil => simp [addImports, firstBy]
  | append_singleton added record ih =>
      have hlisted :
            record.identity ∈ identities (known ++ firstBy ImportRecord.identity
            (added.filter fun record => record.identity ∉ identities known)) ↔
          record.identity ∈ identities known ∨
            record.identity ∈ (added.filter fun record =>
              record.identity ∉ identities known).map
              ImportRecord.identity := by
        rw [identities, List.map_append, List.mem_append, mem_keys_firstBy]
        rfl
      rw [addImports_append, ih, addImports_singleton, List.filter_append]
      by_cases hknown : record.identity ∈ identities known
      · rw [if_pos (hlisted.2 (.inl hknown))]
        simp [hknown]
      · have hfilter : [record].filter
            (fun record => record.identity ∉ identities known) = [record] := by
          simp [hknown]
        rw [hfilter, firstBy_concat]
        simp only [hlisted, hknown, false_or]
        split
        · rfl
        · rw [List.append_assoc]

theorem prefix_addImports (known added : List ImportRecord) :
    known <+: addImports known added := by
  rw [addImports_eq]
  exact List.prefix_append _ _

namespace Importer

structure ContinuedBy (before after : Importer) : Prop where
  file : after.file = before.file
  imports : before.imports <+: after.imports

private theorem continuedBy_merge (importer : Importer)
    (added : List ImportRecord) :
    importer.ContinuedBy (importer.merge added) :=
  ⟨rfl, prefix_addImports _ _⟩

theorem merge_append (importer : Importer) (first second : List ImportRecord) :
    importer.merge (first ++ second) = (importer.merge first).merge second := by
  simp only [merge, addImports_append]

end Importer

/-! ## Merged importers -/

def importsUnder (key : String) (importers : List Importer) :
    List ImportRecord :=
  (importers.filter fun importer => importer.file.key = key).flatMap
    Importer.imports

def firstImporters (importers : List Importer) : List Importer :=
  firstBy (fun importer => importer.file.key) importers

theorem mem_importsUnder {key : String} {importers : List Importer}
    {record : ImportRecord} :
    record ∈ importsUnder key importers ↔
      ∃ importer ∈ importers, importer.file.key = key ∧
        record ∈ importer.imports := by
  simp [importsUnder, and_assoc]

theorem importsUnder_append (key : String) (first second : List Importer) :
    importsUnder key (first ++ second) = importsUnder key first ++
      importsUnder key second := by
  rw [importsUnder, List.filter_append, List.flatMap_append, importsUnder,
    importsUnder]

theorem importsUnder_of_not_mem {key : String} {importers : List Importer}
    (h : key ∉ importerKeys importers) :
    importsUnder key importers = [] := by
  rw [importsUnder, List.filter_eq_nil_iff.2]
  · rfl
  · intro importer himporter hkey
    exact h (List.mem_map.2 ⟨importer, himporter, by simpa using hkey⟩)

private theorem firstImporters_concat (importers : List Importer)
    (importer : Importer) :
    firstImporters (importers ++ [importer]) =
      if importer.file.key ∈ importerKeys importers then
        firstImporters importers
      else firstImporters importers ++ [importer] :=
  firstBy_concat _ importers importer

private theorem key_mem_of_mem_firstImporters {importers : List Importer}
    {first : Importer} (h : first ∈ firstImporters importers) :
    first.file.key ∈ importerKeys importers :=
  List.mem_map_of_mem ((firstBy_sublist _ importers).mem h)

theorem importsUnder_singleton_of_ne {key : String} {importer : Importer}
    (h : importer.file.key ≠ key) :
    importsUnder key [importer] = [] := by
  simp [importsUnder, h]

theorem importsUnder_singleton_self (importer : Importer) :
    importsUnder importer.file.key [importer] = importer.imports := by
  simp [importsUnder]

private theorem addImporter_of_present {added : Importer}
    {importers : List Importer} (hkeys : (importerKeys importers).Nodup)
    (hmem : added.file.key ∈ importerKeys importers) :
    addImporter added importers =
      importers.map fun importer =>
        importer.merge (importsUnder importer.file.key [added]) := by
  induction importers with
  | nil => exact absurd hmem List.not_mem_nil
  | cons importer importers ih =>
      rw [importerKeys, List.map_cons, List.nodup_cons] at hkeys
      by_cases hsame : importer.file.key = added.file.key
      · -- No later entry has the key, so nothing is merged into the others.
        have hothers :
            importers.map
              (fun other => other.merge (importsUnder other.file.key [added])) =
              importers := by
          refine (List.map_congr_left fun other hother => ?_).trans
            (List.map_id _)
          have hne : added.file.key ≠ other.file.key := by
            intro hkey
            exact hkeys.1
              (List.mem_map.2 ⟨other, hother, (hsame.trans hkey).symm⟩)
          rw [importsUnder_singleton_of_ne hne]
          rfl
        rw [addImporter_cons_of_same hsame, List.map_cons, hothers, hsame,
          importsUnder_singleton_self]
      · have hrest := (List.mem_cons.1 hmem).resolve_left (Ne.symm hsame)
        rw [addImporter_cons_of_ne hsame, List.map_cons, ih hkeys.2 hrest,
          importsUnder_singleton_of_ne (Ne.symm hsame)]
        rfl

/-- Every entry is the first importer of its identity, with the imports of all
of them merged into it. -/
theorem addImporters_eq (added : List Importer) :
    addImporters [] added =
      (firstImporters added).map fun first =>
        first.merge (importsUnder first.file.key added) := by
  induction added using List.reverseRecOn with
  | nil => rfl
  | append_singleton added importer ih =>
      have hstep : addImporters [] (added ++ [importer]) =
          addImporter importer (addImporters [] added) := by
        rw [addImporters_append]
        rfl
      have hlisted : importer.file.key ∈ importerKeys (addImporters [] added) ↔
          importer.file.key ∈ importerKeys added :=
        mem_importerKeys_addImporters.trans (or_iff_right List.not_mem_nil)
      rw [hstep, firstImporters_concat]
      by_cases hmem : importer.file.key ∈ importerKeys added
      · rw [addImporter_of_present (nodup_importerKeys_addImporters added)
          (hlisted.2 hmem), ih, List.map_map, if_pos hmem]
        refine List.map_congr_left fun first _ => ?_
        rw [importsUnder_append, Importer.merge_append]
        rfl
      · have hkept : ∀ first ∈ firstImporters added,
            first.merge (importsUnder first.file.key (added ++ [importer])) =
              first.merge (importsUnder first.file.key added) := by
          intro first hfirst
          have hne : importer.file.key ≠ first.file.key := by
            intro hkey
            rw [hkey] at hmem
            exact hmem (key_mem_of_mem_firstImporters hfirst)
          rw [importsUnder_append, importsUnder_singleton_of_ne hne,
            List.append_nil]
        have hadded : importer.merge (importsUnder importer.file.key
            (added ++ [importer])) = importer := by
          have hknown : addImports importer.imports importer.imports =
              importer.imports :=
            addImports_of_known fun record hrecord =>
              List.mem_map_of_mem hrecord
          rw [importsUnder_append, importsUnder_of_not_mem hmem,
            importsUnder_singleton_self, List.nil_append,
            Importer.merge, hknown]
        rw [addImporter_of_absent (mt hlisted.1 hmem), ih, if_neg hmem,
          List.map_append, List.map_congr_left hkept,
          List.map_singleton, hadded]

def newImporters (known added : List Importer) : List Importer :=
  (firstImporters added).filter fun importer =>
    importer.file.key ∉ importerKeys known

private theorem addImporters_append_eq (first second : List Importer) :
    addImporters [] (first ++ second) =
      ((addImporters [] first).map fun entry =>
        entry.merge (importsUnder entry.file.key second)) ++
        (newImporters first second).map fun entry =>
          entry.merge (importsUnder entry.file.key second) := by
  have hfirst : firstImporters (first ++ second) = firstImporters first ++
      newImporters first second :=
    firstBy_append _ first second
  rw [addImporters_eq, hfirst, List.map_append, addImporters_eq, List.map_map]
  congr 1
  · refine List.map_congr_left fun entry _ => ?_
    rw [importsUnder_append, Importer.merge_append]
    rfl
  · refine List.map_congr_left fun entry hentry => ?_
    have hnew : entry.file.key ∉ importerKeys first := by
      simpa using (List.mem_filter.1 hentry).2
    rw [importsUnder_append, importsUnder_of_not_mem hnew, List.nil_append]

theorem forall₂_continuedBy_map {importers : List Importer}
    (imports : Importer → List ImportRecord) :
    List.Forall₂ Importer.ContinuedBy importers (importers.map fun entry =>
      entry.merge (imports entry)) := by
  rw [List.forall₂_map_right_iff, List.forall₂_same]
  exact fun entry _ => entry.continuedBy_merge (imports entry)

theorem files_of_continued {before after : List Importer}
    (h : List.Forall₂ Importer.ContinuedBy before after) :
    after.map Importer.file = before.map Importer.file := by
  induction h with
  | nil => rfl
  | cons hentry _ ih => rw [List.map_cons, List.map_cons, hentry.file, ih]

/-! ## Sightings -/

section Sightings

variable (tree : FileTree) (corpus : Corpus) (styles : StyleFilter)
    (query : Query)

def directMatches : List Importer :=
  addImporters [] (directImporters corpus styles query)

/-- The users of barrels, in the order in which the walk comes upon them. -/
def discoveries : List Importer :=
  match query.target with
  | some target =>
    (followedBarrels tree corpus styles target
      (directMatches corpus styles query)).flatMap
      (Carrier.consumers tree corpus styles)
  | none => []

def sightings : List Importer :=
  directImporters corpus styles query ++ discoveries tree corpus styles query

private theorem traceBarrels_eq_addImporters (target : Path)
    (direct : List Importer) :
    traceBarrels tree corpus styles target direct =
      addImporters direct
        ((followedBarrels tree corpus styles target direct).flatMap
          (Carrier.consumers tree corpus styles)) := by
  rw [traceBarrels_eq_run, Trace.run_eq_iterate,
    (Trace.iterate_followedWithin tree corpus styles _ _).2]
  rfl

theorem searchResults_eq :
    searchResults tree corpus styles query =
      addImporters [] (sightings tree corpus styles query) := by
  rw [sightings, addImporters_append]
  cases htarget : query.target with
  | none =>
      simp only [searchResults, discoveries, htarget]
      rfl
  | some target =>
      simp only [searchResults, discoveries, htarget]
      exact traceBarrels_eq_addImporters tree corpus styles target _

end Sightings

/-! ## Places in the results -/

private theorem directImporters_before {corpus : Corpus}
    (hordered : corpus.Ordered) (styles : StyleFilter) (query : Query) :
    ((directImporters corpus styles query).map Importer.file).Pairwise
      Path.Before := by
  rw [directImporters_eq, List.pairwise_map, List.pairwise_filterMap]
  refine hordered.imp ?_
  intro first second hbefore importer himporter later hlater
  rw [(importerOf?_eq_some.1 himporter).2, (importerOf?_eq_some.1 hlater).2]
  exact hbefore

private theorem directMatches_before {corpus : Corpus}
    (hordered : corpus.Ordered) (styles : StyleFilter) (query : Query) :
    ((directMatches corpus styles query).map Importer.file).Pairwise
      Path.Before := by
  rw [directMatches, files_addImporters]
  exact (directImporters_before hordered styles query).sublist
    (firstBy_sublist _ _)

theorem nodup_importerKeys_searchResults (tree : FileTree) (corpus : Corpus)
    (styles : StyleFilter) (query : Query) :
    (importerKeys (searchResults tree corpus styles query)).Nodup := by
  rw [searchResults_eq]
  exact nodup_importerKeys_addImporters _

/--
The results of a search are its direct matches, in path order and each with
further imports behind its own at most, and then the files that the walk
through barrels discovered, in the order of their first discoveries.  No two of
all these files are the same.
-/
theorem walk_only_appends_to_direct_matches {corpus : Corpus}
    (hordered : corpus.Ordered) (tree : FileTree) (styles : StyleFilter)
    (query : Query) :
    ∃ kept added : List Importer,
      searchResults tree corpus styles query = kept ++ added ∧
        List.Forall₂ Importer.ContinuedBy
          (directMatches corpus styles query) kept ∧
        ((directMatches corpus styles query).map Importer.file).Pairwise
          Path.Before ∧
        (directMatches corpus styles query).map Importer.file =
          firstBy Path.key
            ((directImporters corpus styles query).map Importer.file) ∧
        (kept ++ added).Pairwise
          (fun first second => first.file.sameFile second.file = false) ∧
        List.Forall₂ Importer.ContinuedBy
          (newImporters (directImporters corpus styles query)
            (discoveries tree corpus styles query)) added := by
  have hresults := searchResults_eq tree corpus styles query
  rw [sightings, addImporters_append_eq] at hresults
  refine ⟨_, _, hresults, forall₂_continuedBy_map _,
    directMatches_before hordered styles query, files_addImporters _, ?_,
    forall₂_continuedBy_map _⟩
  rw [← hresults]
  have hdistinct : ({ results := searchResults tree corpus styles query } :
      SearchReport).DistinctResults :=
    SearchReport.distinctResults_iff.2
      (nodup_importerKeys_searchResults tree corpus styles query)
  exact hdistinct

def targetQuery : Query :=
  ⟨none, some ⟨"/t.ts"⟩, []⟩

theorem ring_completes_first_entry :
    (searchResults ringTree ringCorpus {} targetQuery).map
      (fun entry => entry.imports.map ImportRecord.specifier) =
        [["./t", "./b"], ["./a"]] ∧
      ∃ kept added : List Importer,
        searchResults ringTree ringCorpus {} targetQuery = kept ++ added ∧
          kept.map Importer.file = [⟨"/a.ts"⟩] ∧
          added.map Importer.file = [⟨"/b.ts"⟩] := by
  have hloaded : ringCorpus.Loaded ringTree :=
    (Corpus.loaded_new ringTree _ _).loadAll _ _
  obtain ⟨hspecifiers, hdirect, hnew⟩ :
      (searchResults ringTree ringCorpus {} targetQuery).map
          (fun entry => entry.imports.map ImportRecord.specifier) =
          [["./t", "./b"], ["./a"]] ∧
        (directMatches ringCorpus {} targetQuery).map Importer.file =
          [⟨"/a.ts"⟩] ∧
        (newImporters (directImporters ringCorpus {} targetQuery)
          (discoveries ringTree ringCorpus {} targetQuery)).map Importer.file =
          [⟨"/b.ts"⟩] := by
    decide +kernel
  obtain ⟨kept, added, hresults, hkept, -, -, -, hadded⟩ :=
    walk_only_appends_to_direct_matches hloaded.ordered ringTree {} targetQuery
  exact ⟨hspecifiers, kept, added, hresults,
    (files_of_continued hkept).trans hdirect,
    (files_of_continued hadded).trans hnew⟩

end ImportAtlas
