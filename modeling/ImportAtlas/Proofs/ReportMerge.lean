import ImportAtlas.Proofs.ReportedImports

/-!
# Merging search reports

The reports of several roots are merged one into the other.  It does not matter
how they are grouped, and a report without results changes nothing.  Of several
spellings of one file the first one stays, and no import is lost: merging an
entry into another keeps the identities of both.
-/

namespace ImportAtlas

/-! ## Imports of one file -/

section Imports

variable {known added : List ImportRecord}

theorem addImports_append (known first second : List ImportRecord) :
    addImports known (first ++ second) =
      addImports (addImports known first) second :=
  List.foldl_append

theorem addImports_singleton (known : List ImportRecord)
    (record : ImportRecord) :
    addImports known [record] = if record.identity ∈ identities known then known
      else known ++ [record] := by
  have hknown :
      (known.any fun other => other.identity == record.identity) = true ↔
      record.identity ∈ identities known := by
    simp [identities]
  simp only [addImports, List.foldl_cons, List.foldl_nil, hknown]

theorem addImports_of_known
    (h : ∀ record ∈ added, record.identity ∈ identities known) :
    addImports known added = known := by
  induction added with
  | nil => rfl
  | cons record added ih =>
      rw [List.forall_mem_cons] at h
      rw [← List.singleton_append, addImports_append, addImports_singleton,
        if_pos h.1, ih h.2]

private theorem addImports_assoc (first second third : List ImportRecord) :
    addImports first (addImports second third) =
      addImports (addImports first second) third := by
  have hone (second : List ImportRecord) (record : ImportRecord) :
      addImports first (addImports second [record]) =
        addImports (addImports first second) [record] := by
    rw [addImports_singleton second]
    split
    · rename_i hsecond
      rw [addImports_singleton,
        if_pos (mem_identities_addImports.2 (.inr hsecond))]
    · rw [addImports_append]
  induction third generalizing second with
  | nil => rfl
  | cons record third ih =>
      rw [← List.singleton_append, addImports_append, ih, hone,
        ← addImports_append]

end Imports

/-! ## Entries -/

private theorem Importer.merge_merge (importer : Importer)
    (first second : List ImportRecord) :
    (importer.merge first).merge second =
      importer.merge (addImports first second) := by
  simp only [Importer.merge, addImports_assoc]

section Entries

variable {added other : Importer} {importers : List Importer}

theorem addImporter_cons_of_same {importer : Importer}
    (h : importer.file.key = added.file.key) :
    addImporter added (importer :: importers) =
      importer.merge added.imports :: importers :=
  if_pos h

theorem addImporter_cons_of_ne {importer : Importer}
    (h : importer.file.key ≠ added.file.key) :
    addImporter added (importer :: importers) =
      importer :: addImporter added importers :=
  if_neg h

private theorem addImporter_merge (h : other.file.key = added.file.key) :
    addImporter (other.merge added.imports) importers =
      addImporter added (addImporter other importers) := by
  induction importers with
  | nil => exact (addImporter_cons_of_same h).symm
  | cons importer importers ih =>
      by_cases hsame : importer.file.key = other.file.key
      · have hother : importer.file.key =
          (other.merge added.imports).file.key := hsame
        have hadded : (importer.merge other.imports).file.key =
          added.file.key := hsame.trans h
        rw [addImporter_cons_of_same hother, addImporter_cons_of_same hsame,
          addImporter_cons_of_same hadded, Importer.merge_merge]
        rfl
      · have hother : importer.file.key ≠
          (other.merge added.imports).file.key := hsame
        have hadded : importer.file.key ≠ added.file.key :=
          fun hadded => hsame (hadded.trans h.symm)
        rw [addImporter_cons_of_ne hother, addImporter_cons_of_ne hsame,
          addImporter_cons_of_ne hadded, ih]

private theorem addImporter_comm
    (hmem : added.file.key ∈ importerKeys importers)
    (hne : other.file.key ≠ added.file.key) :
    addImporter other (addImporter added importers) =
      addImporter added (addImporter other importers) := by
  induction importers with
  | nil => exact absurd hmem List.not_mem_nil
  | cons importer importers ih =>
      by_cases hadded : importer.file.key = added.file.key
      · have hother : importer.file.key ≠ other.file.key :=
          fun hother => hne (hother.symm.trans hadded)
        have hmerged : (importer.merge added.imports).file.key ≠
          other.file.key := hother
        rw [addImporter_cons_of_same hadded, addImporter_cons_of_ne hother,
          addImporter_cons_of_same hadded, addImporter_cons_of_ne hmerged]
      · by_cases hother : importer.file.key = other.file.key
        · have hmerged : (importer.merge other.imports).file.key ≠
            added.file.key := hadded
          rw [addImporter_cons_of_ne hadded, addImporter_cons_of_same hother,
            addImporter_cons_of_same hother, addImporter_cons_of_ne hmerged]
        · have hrest : added.file.key ∈ importerKeys importers :=
            (List.mem_cons.1 hmem).resolve_left (Ne.symm hadded)
          rw [addImporter_cons_of_ne hadded, addImporter_cons_of_ne hother,
            addImporter_cons_of_ne hother, addImporter_cons_of_ne hadded,
            ih hrest]

private theorem addImporters_addImporter_comm {later : List Importer}
    (hmem : added.file.key ∈ importerKeys importers)
    (hlater : added.file.key ∉ importerKeys later) :
    addImporters (addImporter added importers) later =
      addImporter added (addImporters importers later) := by
  induction later generalizing importers with
  | nil => rfl
  | cons first later ih =>
      rw [importerKeys, List.map_cons, List.mem_cons, not_or] at hlater
      rw [addImporters_cons, addImporter_comm hmem (Ne.symm hlater.1),
        ih (mem_importerKeys_addImporter.2 (.inl hmem)) hlater.2,
        addImporters_cons]

private theorem addImporters_addImporter {entries : List Importer}
    (hkeys : (importerKeys entries).Nodup) :
    addImporters importers (addImporter added entries) =
      addImporter added (addImporters importers entries) := by
  induction entries generalizing importers with
  | nil => rfl
  | cons entry entries ih =>
      rw [importerKeys, List.map_cons, List.nodup_cons] at hkeys
      by_cases hsame : entry.file.key = added.file.key
      · have hmem : added.file.key ∈ importerKeys
            (addImporter entry importers) :=
          mem_importerKeys_addImporter.2 (.inr hsame.symm)
        rw [addImporter_cons_of_same hsame, addImporters_cons,
          addImporter_merge hsame, addImporters_addImporter_comm hmem
            (hsame ▸ hkeys.1), addImporters_cons]
      · rw [addImporter_cons_of_ne hsame, addImporters_cons, ih hkeys.2,
          addImporters_cons]

private theorem files_addImporter (added : Importer)
    (importers : List Importer) :
    (addImporter added importers).map Importer.file =
      if added.file.key ∈ importerKeys importers then
        importers.map Importer.file
      else importers.map Importer.file ++ [added.file] := by
  induction importers with
  | nil => rfl
  | cons importer importers ih =>
      by_cases hsame : importer.file.key = added.file.key
      · have hmem : added.file.key ∈ importerKeys (importer :: importers) :=
          List.mem_cons.2 (.inl hsame.symm)
        rw [addImporter_cons_of_same hsame, if_pos hmem]
        rfl
      · have hmem : added.file.key ∈ importerKeys (importer :: importers) ↔
            added.file.key ∈ importerKeys importers :=
          List.mem_cons.trans (or_iff_right (Ne.symm hsame))
        rw [addImporter_cons_of_ne hsame, List.map_cons, ih]
        simp only [hmem]
        split <;> rfl

/-- An entry keeps its place and the spelling under which its file came first.
-/
theorem files_addImporters (added : List Importer) :
    (addImporters [] added).map Importer.file =
      firstBy Path.key (added.map Importer.file) := by
  induction added using List.reverseRecOn with
  | nil => rfl
  | append_singleton added importer ih =>
      have hmem : importer.file.key ∈ importerKeys (addImporters [] added) ↔
          importer.file.key ∈ (added.map Importer.file).map Path.key := by
        rw [mem_importerKeys_addImporters, List.map_map]
        exact or_iff_right List.not_mem_nil
      rw [addImporters_append, addImporters_cons, List.map_append,
        List.map_singleton, firstBy_concat, ← ih]
      simp only [← hmem]
      exact files_addImporter importer (addImporters [] added)

theorem nodup_importerKeys_addImporters (added : List Importer) :
    (importerKeys (addImporters [] added)).Nodup := by
  have hkeys := nodup_keys_firstBy Path.key (added.map Importer.file)
  rw [← files_addImporters, List.map_map] at hkeys
  exact hkeys

theorem addImporters_of_merged (importers added : List Importer) :
    addImporters importers (addImporters [] added) =
      addImporters importers added := by
  induction added using List.reverseRecOn with
  | nil => rfl
  | append_singleton added importer ih =>
      have hkeys := nodup_importerKeys_addImporters added
      calc addImporters importers (addImporters [] (added ++ [importer]))
          = addImporters importers
              (addImporter importer (addImporters [] added)) := by
            rw [addImporters_append, addImporters_cons]
            rfl
        _ = addImporter importer (addImporters importers added) := by
          rw [addImporters_addImporter hkeys, ih]
        _ = addImporters importers (added ++ [importer]) := by
            rw [addImporters_append, addImporters_cons]
            rfl

private theorem addImporter_of_mem (hkeys : (importerKeys importers).Nodup)
    (hmem : added ∈ importers) :
    addImporter added importers = importers := by
  induction importers with
  | nil => exact absurd hmem List.not_mem_nil
  | cons importer importers ih =>
      rw [importerKeys, List.map_cons, List.nodup_cons] at hkeys
      rcases List.mem_cons.1 hmem with rfl | hmem
      · have hknown : addImports added.imports added.imports = added.imports :=
          addImports_of_known fun record hrecord => List.mem_map_of_mem hrecord
        rw [addImporter_cons_of_same rfl, Importer.merge, hknown]
      · have hne : importer.file.key ≠ added.file.key := by
          intro hsame
          apply hkeys.1
          rw [hsame]
          exact List.mem_map.2 ⟨added, hmem, rfl⟩
        rw [addImporter_cons_of_ne hne, ih hkeys.2 hmem]

private theorem addImporters_of_subset (hkeys : (importerKeys importers).Nodup)
    {again : List Importer}
    (hagain : ∀ importer ∈ again, importer ∈ importers) :
    addImporters importers again = importers := by
  induction again with
  | nil => rfl
  | cons first again ih =>
      rw [List.forall_mem_cons] at hagain
      rw [addImporters_cons, addImporter_of_mem hkeys hagain.1, ih hagain.2]

end Entries

/-! ## Reports -/

namespace SearchReport

def DistinctResults (report : SearchReport) : Prop :=
  report.results.Pairwise fun first second =>
    first.file.sameFile second.file = false

instance (report : SearchReport) : Decidable report.DistinctResults :=
  inferInstanceAs (Decidable (List.Pairwise _ _))

theorem distinctResults_iff {report : SearchReport} :
    report.DistinctResults ↔ (importerKeys report.results).Nodup := by
  rw [DistinctResults, importerKeys, List.Nodup, List.pairwise_map]
  simp only [← Bool.not_eq_true, Path.sameFile_iff, ne_eq]

theorem results_merge (first second : SearchReport) :
    (first.merge second).results =
      addImporters [] (first.results ++ second.results) :=
  (addImporters_append [] first.results second.results).symm

private theorem results_merge_assoc (first second third : SearchReport) :
    ((first.merge second).merge third).results =
      (first.merge (second.merge third)).results := by
  have hleft : ((first.merge second).merge third).results =
      addImporters [] ((first.results ++ second.results) ++ third.results) := by
    rw [results_merge, results_merge, addImporters_append,
      addImporters_of_merged, ← addImporters_append]
  have hright : (first.merge (second.merge third)).results =
      addImporters [] (first.results ++ (second.results ++ third.results)) := by
    rw [results_merge, results_merge, addImporters_append,
      addImporters_of_merged, ← addImporters_append]
  rw [hleft, hright, List.append_assoc]

private theorem merge_assoc (first second third : SearchReport) :
    (first.merge second).merge third = first.merge (second.merge third) := by
  have hresults := results_merge_assoc first second third
  have hchoice {α : Type} (first second third : Option α) :
      ((first <|> second) <|> third) = (first <|> (second <|> third)) := by
    cases first <;> rfl
  rw [merge, merge, mk.injEq]
  exact ⟨List.append_assoc _ _ _, hchoice _ _ _, hchoice _ _ _, hresults,
    Nat.add_assoc _ _ _, List.append_assoc _ _ _⟩

section Distinct

variable {report : SearchReport}

theorem addImporters_results (h : report.DistinctResults) :
    addImporters [] report.results = report.results :=
  addImporters_of_nodup (distinctResults_iff.1 h)

private theorem empty_merge (h : report.DistinctResults) :
    merge {} report = report := by
  have hresults := addImporters_results h
  have hmodule : (none <|> report.module) = report.module := by
    cases report.module <;> rfl
  have htarget : (none <|> report.target) = report.target := by
    cases report.target <;> rfl
  obtain ⟨roots, module, target, results, filesScanned, failed⟩ := report
  rw [merge, mk.injEq]
  exact ⟨rfl, hmodule, htarget, hresults, Nat.zero_add _, rfl⟩

private theorem merge_empty (h : report.DistinctResults) :
    report.merge {} = report := by
  have hresults := addImporters_results h
  have hmodule : (report.module <|> none) = report.module := by
    cases report.module <;> rfl
  have htarget : (report.target <|> none) = report.target := by
    cases report.target <;> rfl
  obtain ⟨roots, module, target, results, filesScanned, failed⟩ := report
  rw [merge, mk.injEq]
  exact ⟨List.append_nil _, hmodule, htarget, hresults, rfl, List.append_nil _⟩

private theorem results_merge_self (h : report.DistinctResults) :
    (report.merge report).results = report.results := by
  rw [results_merge, addImporters_append, addImporters_results h]
  exact addImporters_of_subset (distinctResults_iff.1 h) fun _ hmem => hmem

end Distinct

private theorem distinctResults_merge (first second : SearchReport) :
    (first.merge second).DistinctResults := by
  rw [distinctResults_iff, results_merge]
  exact nodup_importerKeys_addImporters _

private theorem files_merge (first second : SearchReport) :
    (first.merge second).results.map Importer.file =
      firstBy Path.key
        ((first.results ++ second.results).map Importer.file) := by
  rw [results_merge]
  exact files_addImporters _

private theorem reports_merge (first second : SearchReport) (key : String)
    (identity : ImportIdentity) :
    Reports (first.merge second).results key identity ↔
      Reports first.results key identity ∨
      Reports second.results key identity := by
  have hnone : ¬Reports [] key identity := by simp [Reports]
  rw [results_merge, addImporters_append, reports_addImporters,
    reports_addImporters, or_iff_right hnone]

/--
Merging search reports is associative.  The empty report is neutral for reports
with one result for each file, and merging such a report with itself keeps its
results.  A merged report has one result for each file, in the order and the
spelling in which the files came first, and it reports what one of the two
reports: every import, up to its specifier, line and style.
-/
theorem merge_is_monoid_without_loss (first second third : SearchReport) :
    (first.merge second).merge third = first.merge (second.merge third) ∧
      (first.DistinctResults →
        merge {} first = first ∧ first.merge {} = first ∧
        (first.merge first).results = first.results) ∧
      (first.merge second).DistinctResults ∧
      (first.merge second).results.map Importer.file =
        firstBy Path.key ((first.results ++ second.results).map Importer.file) ∧
      ∀ key identity, Reports (first.merge second).results key identity ↔
        Reports first.results key identity ∨
        Reports second.results key identity :=
  ⟨merge_assoc first second third, fun h =>
    ⟨empty_merge h, merge_empty h, results_merge_self h⟩, distinctResults_merge
    first second, files_merge first second, reports_merge first second⟩

def doubledReport : SearchReport :=
  let record : ImportRecord :=
    ⟨"react", .static, 1, 1, [], .standard, "import 'react'",
      some (.package "react")⟩
  { roots := [⟨"/app"⟩], module := some "react", filesScanned := 3,
    results :=
      [⟨⟨"/app/main.ts"⟩, [record, record]⟩, ⟨⟨"/app/user.ts"⟩, [record]⟩] }

theorem doubledReport_kept_by_merging :
    doubledReport.DistinctResults ∧ merge {} doubledReport = doubledReport ∧
      doubledReport.merge {} = doubledReport ∧
      (doubledReport.merge doubledReport).results = doubledReport.results := by
  have hdistinct : doubledReport.DistinctResults := by decide +kernel
  exact ⟨hdistinct,
    (merge_is_monoid_without_loss doubledReport {} {}).2.1 hdistinct⟩

end SearchReport

end ImportAtlas
