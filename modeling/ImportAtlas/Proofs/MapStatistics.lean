import ImportAtlas.Proofs.CorpusLog
import Mathlib.Algebra.BigOperators.Group.Finset.Basic
import Mathlib.Algebra.GroupWithZero.Nat
import Mathlib.Algebra.Order.BigOperators.Group.Multiset

/-!
# Statistics of an import map

The numbers of an import map are counts of the imports that it lists, and none
is lost: what is not resolved to a file leads to a package or nowhere, and the
imports of the single files add up to those that were resolved.  Both rankings
are heads of one list in two orders.
-/

namespace ImportAtlas

open Std

/-! ## What the numbers of a map mean -/

namespace ImportMap

def records (map : ImportMap) : List ImportRecord :=
  map.imports.flatMap Prod.snd

def importCount (map : ImportMap) (file : Path) : Nat :=
  map.records.countP fun record => record.ResolvesTo file

def counted (map : ImportMap) : List FileCount :=
  map.importedBy.map fun entry => ⟨entry.1, map.importCount entry.1⟩

/-- Whether a list of files is the head of all imported files in some order. -/
structure Ranks (map : ImportMap) (before : FileCount → FileCount → Prop)
    (limit : Nat) (listed : List FileCount) :
    Prop where
  leading : ∃ ranking : List FileCount, ranking.Perm map.counted ∧
    ranking.Pairwise before ∧
    listed = ranking.take limit
  once : listed.Pairwise fun first second =>
    first.file.sameFile second.file = false
  whole : map.importedBy.length ≤ limit →
    (listed.map FileCount.file).Perm (map.importedBy.map Prod.fst)

end ImportMap

def FileCount.MoreImported (first second : FileCount) : Prop :=
  second.count < first.count ∨ first.count = second.count ∧
    first.file.Before second.file

def FileCount.LessImported (first second : FileCount) : Prop :=
  first.count < second.count ∨ first.count = second.count ∧
    first.file.Before second.file

structure ImportMap.Tallied (map : ImportMap) (limit : Nat) : Prop where
  files : map.stats.totalFiles = map.imports.length
  imports :
    map.stats.totalImports = (map.imports.map fun entry => entry.2.length).sum
  divided : map.stats.totalImports =
    map.stats.resolvedImports + map.stats.packageImports +
      map.stats.unresolvedImports
  resolved : map.stats.resolvedImports = map.records.countP isFileImport
  packages : map.stats.packageImports = map.records.countP isPackageImport
  unresolved : map.stats.unresolvedImports = map.records.countP fun record =>
    record.resolved.isNone
  /-- The imported files are those that some import was resolved to. -/
  identities : ∀ file, (∃ record ∈ map.records, record.ResolvesTo file) ↔
    ∃ entry ∈ map.importedBy, entry.1.sameFile file = true
  distinct : map.importedBy.Pairwise fun first second =>
    first.1.sameFile second.1 = false
  conserved : (map.counted.map FileCount.count).sum = map.stats.resolvedImports
  most : map.Ranks FileCount.MoreImported limit map.stats.mostImported
  least : map.Ranks FileCount.LessImported limit map.stats.leastImported

/-! ## Numbers of imports -/

variable {corpus : Corpus} {styles : StyleFilter} {statsLimit : Nat}

private theorem length_eq_by_target (records : List ImportRecord) :
    records.length = records.countP isFileImport +
      records.countP isPackageImport +
      records.countP fun record => record.resolved.isNone := by
  induction records with
  | nil => rfl
  | cons record records ih =>
      obtain ⟨_, _, _, _, _, _, _, resolved⟩ := record
      rw [List.length_cons, List.countP_cons, List.countP_cons,
        List.countP_cons, ih]
      rcases resolved with _ | (path | name) <;>
        simp [isFileImport, isPackageImport] <;> omega

theorem records_importMap (hordered : corpus.Ordered) :
    (importMap corpus styles statsLimit).records =
      corpus.modules.flatMap (keptImports styles) := by
  rw [ImportMap.records, importMap_imports hordered, List.flatMap_map]

def ImportRecord.targetKey? (record : ImportRecord) : Option String :=
  (record.resolved.bind Target.file?).map Path.key

theorem ImportRecord.targetKey?_eq_some {record : ImportRecord} {file : Path} :
    record.targetKey? = some file.key ↔ record.ResolvesTo file := by
  rw [resolvesTo_iff_file, targetKey?]
  rcases record.resolved with _ | (path | name) <;> simp [Target.file?]

private theorem isFileImport_eq (record : ImportRecord) :
    isFileImport record = record.targetKey?.isSome := by
  unfold isFileImport ImportRecord.targetKey?
  rcases record.resolved with _ | (path | name) <;> rfl

private theorem sum_count_eq_length {keys items : List String}
    (hkeys : keys.Nodup) (hitems : ∀ key ∈ items, key ∈ keys) :
    (keys.map fun key => items.count key).sum = items.length := by
  rw [← List.sum_toFinset _ hkeys, ← Multiset.coe_card,
    ← Multiset.sum_count_eq_card (s := keys.toFinset)]
  · simp
  · simpa using hitems

namespace ImportMap

variable {map : ImportMap}

/-- If every import of a file is listed under one key only, the imports of all
keys are those of all files. -/
theorem sum_counted (hdistinct : map.importedBy.Pairwise fun first second =>
      first.1.sameFile second.1 = false)
    (hidentities : ∀ file, (∃ record ∈ map.records, record.ResolvesTo file) →
      ∃ entry ∈ map.importedBy, entry.1.sameFile file = true) :
    (map.counted.map FileCount.count).sum =
      map.records.countP isFileImport := by
  have hcount (file : Path) : map.importCount file =
      (map.records.filterMap ImportRecord.targetKey?).count file.key := by
    rw [importCount, List.count, List.countP_filterMap]
    refine List.countP_congr fun record _ => ?_
    rw [decide_eq_true_eq, ← ImportRecord.targetKey?_eq_some]
    cases record.targetKey? <;> simp
  have hsum : map.counted.map FileCount.count =
      (map.importedBy.map fun entry => entry.1.key).map fun key =>
        (map.records.filterMap ImportRecord.targetKey?).count key := by
    simp [counted, hcount]
  have hlength : map.records.countP isFileImport =
      (map.records.filterMap ImportRecord.targetKey?).length := by
    rw [List.length_filterMap_eq_countP]
    exact List.countP_congr fun record _ => by rw [isFileImport_eq]
  rw [hsum, hlength]
  apply sum_count_eq_length
  · exact List.pairwise_map.2 (hdistinct.imp Path.sameFile_eq_false_iff.1)
  · intro key hkey
    obtain ⟨record, hrecord, htarget⟩ := List.mem_filterMap.1 hkey
    obtain ⟨path, -, rfl⟩ := Option.map_eq_some_iff.1 htarget
    obtain ⟨entry, hentry, hsame⟩ :=
      hidentities path ⟨record, hrecord,
        ImportRecord.targetKey?_eq_some.1 htarget⟩
    exact List.mem_map.2 ⟨entry, hentry, Path.sameFile_iff.1 hsame⟩

end ImportMap

/-! ## Imported files -/

theorem importMap_identities (hordered : corpus.Ordered) (file : Path) :
    (∃ record ∈ (importMap corpus styles statsLimit).records,
      record.ResolvesTo file) ↔
      ∃ entry ∈ (importMap corpus styles statsLimit).importedBy,
        entry.1.sameFile file = true := by
  constructor
  · rintro ⟨record, hrecord, hresolves⟩
    obtain ⟨⟨importer, records⟩, hentry, hrecord⟩ := List.mem_flatMap.1 hrecord
    obtain ⟨target, htarget, hkey⟩ :=
      ImportRecord.resolvesTo_iff_file.1 hresolves
    obtain ⟨key, importers, hlisted, hsame, -⟩ :=
      importMap_forward hordered hentry hrecord htarget
    exact ⟨(key, importers), hlisted,
      Path.sameFile_iff.2 ((Path.sameFile_iff.1 hsame).trans hkey)⟩
  · rintro ⟨⟨key, importers⟩, hlisted, hsame⟩
    obtain ⟨importer, others, himporters⟩ :=
      List.exists_cons_of_ne_nil (importMap_importers_ne_nil hlisted)
    obtain ⟨source, records, hentry, -, record, hrecord, hresolves⟩ :=
      importMap_backward hordered hlisted (himporters ▸ List.mem_cons_self)
    obtain ⟨target, htarget, hkey⟩ :=
      ImportRecord.resolvesTo_iff_file.1 hresolves
    exact ⟨record, List.mem_flatMap.2 ⟨_, hentry, hrecord⟩,
      ImportRecord.resolvesTo_iff_file.2 ⟨target, htarget,
        hkey.trans (Path.sameFile_iff.1 hsame)⟩⟩

theorem importMap_importedBy_distinct :
    (importMap corpus styles statsLimit).importedBy.Pairwise fun first second =>
      first.1.sameFile second.1 = false := by
  have hpairwise :=
    (importGraph_wellFormed styles corpus.modules).fileCounts_pairwise.filter
      fun entry => entry.2 != 0
  refine (importedBy_perm.pairwise_iff ?_).2
    (List.pairwise_map.2 (hpairwise.imp Path.sameFile_eq_false_iff.2))
  intro first second hdifferent
  rw [Path.sameFile_eq_false_iff] at hdifferent ⊢
  exact hdifferent.symm

def linkedFiles (styles : StyleFilter) (modules : List FileModule) :
    List FileCount :=
  ((importGraph styles modules).fileCounts.filter fun entry => entry.2 != 0).map
    fun entry => ⟨entry.1, entry.2⟩

private theorem linkedFiles_perm_counted (hordered : corpus.Ordered) :
    (linkedFiles styles corpus.modules).Perm
      (importMap corpus styles statsLimit).counted := by
  refine .trans (.of_eq ?_) (importedBy_perm.map _).symm
  rw [linkedFiles, List.map_map]
  refine List.map_congr_left fun entry hentry => ?_
  have hfile := List.mem_of_mem_filter hentry
  rw [importGraph_eq_graph, GraphLog.fileCounts_graph] at hfile
  obtain ⟨path, -, rfl⟩ := List.mem_map.1 hfile
  simp [ImportMap.importCount, records_importMap hordered, countOf_corpusLog]

/-! ## Rankings -/

theorem importMap_ranks (hordered : corpus.Ordered) {ranking : List FileCount}
    (hranking : ranking.Perm (linkedFiles styles corpus.modules))
    (compare : FileCount → FileCount → Ordering)
    (hsorted : ranking.Pairwise fun first second =>
      (compare first second).isLE = true)
    (heq : ∀ first second, compare first second = .eq →
      first.file.same second.file = true)
    {before : FileCount → FileCount → Prop}
    (hbefore : ∀ first second, compare first second = .lt → before first second)
    (limit : Nat) :
    (importMap corpus styles statsLimit).Ranks before limit
      (ranking.take limit) := by
  have hperm : ranking.Perm (importMap corpus styles statsLimit).counted :=
    hranking.trans (linkedFiles_perm_counted hordered)
  have hdistinct : ranking.Pairwise fun first second =>
      first.file.sameFile second.file = false := by
    refine (hperm.pairwise_iff ?_).2
      (List.pairwise_map.2 importMap_importedBy_distinct)
    intro first second hdifferent
    rw [Path.sameFile_eq_false_iff] at hdifferent ⊢
    exact hdifferent.symm
  constructor
  · refine ⟨_, hperm, ?_, rfl⟩
    refine (hsorted.and hdistinct).imp ?_
    rintro first second ⟨hle, hdifferent⟩
    refine hbefore first second
      ((Ordering.isLE_iff_eq_lt_or_eq_eq.1 hle).resolve_right fun hsame => ?_)
    exact Path.sameFile_eq_false_iff.1 hdifferent
      (Path.key_eq_of_same (heq first second hsame))
  · exact hdistinct.sublist (List.take_sublist limit _)
  · intro hlimit
    have hlength := hperm.length_eq
    rw [ImportMap.counted, List.length_map] at hlength
    rw [List.take_of_length_le (hlength.trans_le hlimit)]
    refine (hperm.map FileCount.file).trans (.of_eq ?_)
    simp [ImportMap.counted]

namespace FileCount

def compareCounts : FileCount → FileCount → Ordering :=
  compareOn count

def compareFiles (first second : FileCount) : Ordering :=
  first.file.compare second.file

instance : TransCmp compareCounts :=
  inferInstanceAs (TransCmp (compareOn count))

instance : TransCmp compareFiles where
  eq_swap {first second} :=
    @OrientedCmp.eq_swap Path Path.compare _ first.file second.file
  isLE_trans {first second third} :=
    @TransCmp.isLE_trans Path Path.compare _ first.file second.file third.file

variable {first second : FileCount}

instance : Decidable (first.MoreImported second) :=
  inferInstanceAs (Decidable (_ ∨ _ ∧ first.file.compare second.file = .lt))

private theorem MoreImported.asymm (h : first.MoreImported second) :
    ¬second.MoreImported first := by
  rintro (hless | ⟨hcount, hbefore⟩)
  · rcases h with h | h <;> omega
  · rcases h with h | h
    · omega
    · exact h.2.not_before hbefore

private theorem moreImported_of_compare
    (h : compareLex (fun first second => compareCounts second first)
      compareFiles first second = .lt) :
    first.MoreImported second := by
  rw [compareLex, Ordering.then_eq_lt] at h
  exact h.imp Nat.compare_eq_lt.1 fun h => ⟨(Nat.compare_eq_eq.1 h.1).symm, h.2⟩

private theorem lessImported_of_compare
    (h : compareLex compareCounts compareFiles first second = .lt) :
    first.LessImported second := by
  rw [compareLex, Ordering.then_eq_lt] at h
  exact h.imp Nat.compare_eq_lt.1 fun h => ⟨Nat.compare_eq_eq.1 h.1, h.2⟩

theorem same_of_compare {compare : FileCount → FileCount → Ordering}
    (h : compareLex compare compareFiles first second = .eq) :
    first.file.same second.file = true := by
  rw [compareLex, Ordering.then_eq_eq] at h
  exact Path.compare_eq_iff_same.1 h.2

end FileCount

/-! ## All statistics -/

/--
The statistics of the import map of a corpus in path order count the kept
imports, without loss, and rank the imported files by their numbers of imports
and by their paths.
-/
theorem importMap_statistics_conserve_and_rank (hordered : corpus.Ordered)
    (styles : StyleFilter) (statsLimit : Nat) :
    (importMap corpus styles statsLimit).Tallied statsLimit ∧
      (importMap corpus styles statsLimit).records =
        corpus.modules.flatMap fun module =>
          module.imports.filter fun record => styles.allows record.style := by
  have hrecords : (importMap corpus styles statsLimit).records =
      corpus.modules.flatMap (keptImports styles) :=
    records_importMap hordered
  have hresolved : (importMap corpus styles statsLimit).stats.resolvedImports =
      (importMap corpus styles statsLimit).records.countP isFileImport := by
    rw [hrecords, List.countP_eq_length_filter]
    rfl
  refine ⟨?_, hrecords⟩
  constructor
  case files => rw [importMap_imports hordered, List.length_map]; rfl
  case imports =>
    rw [importMap_imports hordered, List.map_map]
    exact List.length_flatMap
  case divided =>
    have hdivided :=
      length_eq_by_target (corpus.modules.flatMap (keptImports styles))
    simp only [List.countP_eq_length_filter] at hdivided
    exact hdivided
  case resolved => exact hresolved
  case packages => rw [hrecords, List.countP_eq_length_filter]; rfl
  case unresolved => rw [hrecords, List.countP_eq_length_filter]; rfl
  case identities => exact importMap_identities hordered
  case distinct => exact importMap_importedBy_distinct
  case conserved =>
    rw [hresolved]
    exact ImportMap.sum_counted importMap_importedBy_distinct fun file =>
      (importMap_identities hordered file).1
  case most =>
    exact importMap_ranks hordered (List.mergeSort_perm _ _)
      (compareLex (fun first second => FileCount.compareCounts second first)
        FileCount.compareFiles)
      (Path.pairwise_mergeSort_compare _) (fun _ _ => FileCount.same_of_compare)
      (fun _ _ => FileCount.moreImported_of_compare) statsLimit
  case least =>
    exact importMap_ranks hordered (List.mergeSort_perm _ _)
      (compareLex FileCount.compareCounts FileCount.compareFiles)
      (Path.pairwise_mergeSort_compare _) (fun _ _ => FileCount.same_of_compare)
      (fun _ _ => FileCount.lessImported_of_compare) statsLimit

theorem forkCorpus_most_imported :
    (importMap forkCorpus {} 2).stats.resolvedImports = 5 ∧
      (importMap forkCorpus {} 2).stats.mostImported =
        [⟨⟨"/t.ts"⟩, 2⟩, ⟨⟨"/a.ts"⟩, 1⟩] := by
  obtain ⟨htallied, -⟩ :=
    importMap_statistics_conserve_and_rank forkCorpus_loaded.ordered {} 2
  obtain ⟨ranking, hperm, hranking, hmost⟩ := htallied.most.leading
  have hcounted : (importMap forkCorpus {} 2).counted =
      [⟨⟨"/a.ts"⟩, 1⟩, ⟨⟨"/b.ts"⟩, 1⟩, ⟨⟨"/hub.ts"⟩, 1⟩, ⟨⟨"/t.ts"⟩, 2⟩] := by
    decide +kernel
  have hexpected : List.Pairwise FileCount.MoreImported
      [⟨⟨"/t.ts"⟩, 2⟩, ⟨⟨"/a.ts"⟩, 1⟩, ⟨⟨"/b.ts"⟩, 1⟩, ⟨⟨"/hub.ts"⟩, 1⟩] := by
    decide +kernel
  have hconserved := htallied.conserved
  rw [hcounted] at hperm hconserved
  refine ⟨hconserved.symm, ?_⟩
  rw [hmost, List.Perm.eq_of_pairwise (fun _ _ _ _ h h' => (h.asymm h').elim)
    hranking hexpected
    (hperm.trans (by decide +kernel))]
  rfl

end ImportAtlas
