import ImportAtlas.CommandLine.Run
import ImportAtlas.Proofs.NotImported

/-!
# Unused files below several roots

Every root is scanned on its own, and the reports are put together root by
root.  So a file is listed at most once for every root whose scan loads it, and
what it is blamed for is true of the files below one of these roots: imports
from below another root are not seen.
-/

namespace ImportAtlas

open CommandLine

/-- The unused files below all roots, as the command for unused files puts them
together. -/
def unusedBelow (tree : FileTree) (options : ScanOptions)
    (filter : Option String) (roots : List Path) :
    Except String UnusedReport :=
  (scanRoots tree options (fun scan => unusedScan tree scan filter) roots).map
    fun reports => reports.foldl UnusedReport.merge {}

theorem answerCommand_unused (tree : FileTree) (options : ScanOptions)
    {invocation : Invocation} (h : invocation.command = .unused) :
    answerCommand tree options invocation =
      (unusedBelow tree options (invocation.value? .filter)
        invocation.roots).map Answer.unused := by
  unfold answerCommand unusedBelow
  rw [h]
  dsimp only
  generalize scanRoots tree options
    (fun scan => unusedScan tree scan (invocation.value? .filter))
    invocation.roots = answers
  cases answers <;> rfl

def scanLoads (tree : FileTree) (options : ScanOptions) (file root : Path) :
    Bool :=
  match Scan.run tree root options with
  | .ok scan => (scan.corpus.module? file).isSome
  | .error _ => false

variable {tree : FileTree} {options : ScanOptions} {filter : Option String}
    {roots : List Path}

/-! ## Root by root -/

-- A scan is matched on here, and reducing it to see which case holds does not
-- end in reasonable time.
attribute [local irreducible] Scan.run in
private theorem scanRoots_cons {α : Type} (answer : Scan → α) (root : Path)
    (roots : List Path) :
    scanRoots tree options answer (root :: roots) =
      match Scan.run tree root options with
      | .error error =>
        .error
          (": ".intercalate (("Failed to scan " ++ root.text) :: error.causes))
      | .ok scan =>
        match scanRoots tree options answer roots with
        | .error message => .error message
        | .ok answers => .ok (answer scan :: answers) :=
  rfl

def Scans (tree : FileTree) (options : ScanOptions) :
    List Path → List Scan → Prop :=
  List.Forall₂ fun root scan => Scan.run tree root options = .ok scan

private theorem scanRoots_eq_ok {α : Type} (answer : Scan → α)
    (h : ∀ root ∈ roots, (Scan.run tree root options).isOk = true) :
    ∃ scans, Scans tree options roots scans ∧
      scanRoots tree options answer roots = .ok (scans.map answer) := by
  induction roots with
  | nil => exact ⟨[], .nil, rfl⟩
  | cons root roots ih =>
      rw [List.forall_mem_cons] at h
      obtain ⟨hroot, hroots⟩ := h
      obtain ⟨scans, hscans, hanswers⟩ := ih hroots
      cases hscan : Scan.run tree root options with
      | error error =>
          rw [hscan] at hroot
          contradiction
      | ok scan =>
          refine ⟨scan :: scans, .cons hscan hscans, ?_⟩
          rw [scanRoots_cons, hscan, hanswers, List.map_cons]

private theorem unused_foldl_merge (report : UnusedReport)
    (reports : List UnusedReport) :
    (reports.foldl UnusedReport.merge report).unused = report.unused ++
      reports.flatMap UnusedReport.unused := by
  induction reports generalizing report with
  | nil => simp
  | cons first reports ih =>
      rw [List.foldl_cons, ih, UnusedReport.merge, List.flatMap_cons,
        List.append_assoc]

private theorem unusedBelow_eq_ok (filter : Option String)
    (h : ∀ root ∈ roots, (Scan.run tree root options).isOk = true) :
    ∃ scans report, Scans tree options roots scans ∧
      unusedBelow tree options filter roots = .ok report ∧
      report.unused = scans.flatMap fun scan =>
        unusedFiles tree scan.corpus filter := by
  obtain ⟨scans, hscans, hanswers⟩ :=
    scanRoots_eq_ok (fun scan => unusedScan tree scan filter) h
  refine ⟨scans, (scans.map fun scan => unusedScan tree scan filter).foldl
    UnusedReport.merge {}, hscans, ?_, ?_⟩
  · rw [unusedBelow, hanswers, Except.map]
  · rw [unused_foldl_merge, List.flatMap_map]
    rfl

theorem Scans.mem_flatMap {α : Type} {list : Scan → List α} {scans : List Scan}
    (h : Scans tree options roots scans) {item : α} :
    item ∈ scans.flatMap list ↔
      ∃ root ∈ roots, ∃ scan, Scan.run tree root options = .ok scan ∧
        item ∈ list scan := by
  induction h with
  | nil => simp
  | cons hscan _ ih =>
      simp only [List.flatMap_cons, List.mem_append, ih,
        List.exists_mem_cons_iff, hscan, Except.ok.injEq, exists_eq_left']

/-! ## How often a file is listed -/

private theorem countP_le_one {α : Type} {p : α → Bool} {list : List α}
    (h : list.Pairwise fun first second => p first = true → p second = false) :
    list.countP p ≤ 1 := by
  induction h with
  | nil => simp
  | @cons first list hfirst _ ih =>
      by_cases hp : p first = true
      · have hrest : list.countP p = 0 :=
          List.countP_eq_zero.2 fun item hitem => by simp [hfirst item hitem hp]
        rw [List.countP_cons_of_pos hp, hrest]
      · rw [List.countP_cons_of_neg hp]
        exact ih

private theorem unusedFiles_before {corpus : Corpus}
    (hordered : corpus.Ordered) :
    (unusedFiles tree corpus filter).Pairwise fun first second =>
      first.file.Before second.file := by
  rw [unusedFiles_eq, List.pairwise_filterMap]
  refine (hordered.filter _).imp ?_
  intro first second hbefore unused hunused later hlater
  rw [unusedFile?_file hunused, unusedFile?_file hlater]
  exact hbefore

private theorem countP_unusedFiles_le {corpus : Corpus}
    (hordered : corpus.Ordered) (file : Path) :
    ((unusedFiles tree corpus filter).countP fun unused =>
      unused.file.same file) ≤
      if (corpus.module? file).isSome then 1 else 0 := by
  split
  case isTrue =>
    refine countP_le_one ((unusedFiles_before hordered).imp ?_)
    intro first second hbefore hfirst
    rw [Bool.eq_false_iff]
    intro hsecond
    exact hbefore.not_same (Path.same_trans hfirst (Path.same_symm hsecond))
  case isFalse hnone =>
    refine Nat.le_of_eq (List.countP_eq_zero.2 ?_)
    intro unused hunused hsame
    obtain ⟨module, hmember, hfile, -⟩ :=
      exists_module_of_mem_unusedFiles hunused
    exact hnone (List.find?_isSome.2 ⟨module, hmember, hfile ▸ hsame⟩)

private theorem Scans.countP_unused_le {scans : List Scan}
    (h : Scans tree options roots scans) (file : Path) :
    ((scans.flatMap fun scan => unusedFiles tree scan.corpus filter).countP
      fun unused => unused.file.same file) ≤
      roots.countP (scanLoads tree options file) := by
  induction h with
  | nil => simp
  | @cons root scan roots scans hscan _ ih =>
      have hloads : scanLoads tree options file root =
          (scan.corpus.module? file).isSome := by
        unfold scanLoads
        rw [hscan]
      rw [List.flatMap_cons, List.countP_append, List.countP_cons, hloads,
        Nat.add_comm]
      exact Nat.add_le_add ih
        (countP_unusedFiles_le (Scan.run_loaded hscan).ordered file)

/-! ## What is listed -/

private theorem not_importedByOther_of_mem_unusedFiles {corpus : Corpus}
    (hloaded : corpus.Loaded tree) {file : Path}
    (h : ⟨file, .notImported⟩ ∈ unusedFiles tree corpus filter) :
    (∃ module ∈ corpus.modules, module.path = file) ∧
      ¬corpus.ImportedByOther file := by
  obtain ⟨module, hmember, rfl, hunused⟩ := exists_module_of_mem_unusedFiles h
  exact ⟨⟨module, hmember, rfl⟩,
    (unusedFile?_notImported_iff hloaded.resolved).1 hunused⟩

private theorem mem_unusedFiles_of_no_importer {corpus : Corpus}
    (hloaded : corpus.Loaded tree) {module : FileModule}
    (hmember : module ∈ corpus.modules)
    (hfilter : ∀ part, filter = some part →
      part.toList <:+: module.path.text.toList)
    (hnone : ∀ importer ∈ corpus.modules, ∀ record ∈ importer.imports,
      record.ResolvesTo module.path →
      importer.path.same module.path = true) :
    ⟨module.path, .notImported⟩ ∈ unusedFiles tree corpus filter := by
  refine (mem_unusedFiles hmember).2 ⟨hfilter,
    (unusedFile?_notImported_iff hloaded.resolved).2 ?_⟩
  rintro ⟨importer, himporter, hother, record, hrecord, hfile⟩
  have hkey : importer.path.sameFile module.path = true :=
    Path.sameFile_iff.2
      (Path.key_eq_of_same (hnone importer himporter record hrecord hfile))
  rw [hkey] at hother
  contradiction

/--
The unused files below roots that can all be scanned.  A file is listed at most
once for every root whose scan loads it.  Below one of these roots nothing with
another identity imports a file that is called not imported, and a file that no
other file below its root imports is called so.
-/
theorem unusedBelow_judges_root_by_root (tree : FileTree)
    (options : ScanOptions) (filter : Option String) (roots : List Path)
    (h : ∀ root ∈ roots, (Scan.run tree root options).isOk = true) :
    ∃ report, unusedBelow tree options filter roots = .ok report ∧
      (∀ file, (report.unused.countP fun unused => unused.file.same file) ≤
        roots.countP (scanLoads tree options file)) ∧
      (∀ file, ⟨file, .notImported⟩ ∈ report.unused →
        ∃ root ∈ roots, ∃ scan, Scan.run tree root options = .ok scan ∧
          (∃ module ∈ scan.corpus.modules, module.path = file) ∧
          ¬scan.corpus.ImportedByOther file) ∧
      ∀ root ∈ roots, ∀ scan, Scan.run tree root options = .ok scan →
        ∀ module ∈ scan.corpus.modules,
          (∀ part, filter = some part →
            part.toList <:+: module.path.text.toList) →
          (∀ importer ∈ scan.corpus.modules, ∀ record ∈ importer.imports,
            record.ResolvesTo module.path →
            importer.path.same module.path = true) →
          ⟨module.path, .notImported⟩ ∈ report.unused := by
  obtain ⟨scans, report, hscans, hreport, hunused⟩ := unusedBelow_eq_ok filter h
  refine ⟨report, hreport, ?_, ?_, ?_⟩
  · intro file
    rw [hunused]
    exact hscans.countP_unused_le file
  · intro file hfile
    rw [hunused, hscans.mem_flatMap] at hfile
    obtain ⟨root, hroot, scan, hscan, hlisted⟩ := hfile
    exact ⟨root, hroot, scan, hscan, not_importedByOther_of_mem_unusedFiles
      (Scan.run_loaded hscan) hlisted⟩
  · intro root hroot scan hscan module hmember hfilter hnone
    rw [hunused, hscans.mem_flatMap]
    exact ⟨root, hroot, scan, hscan,
      mem_unusedFiles_of_no_importer (Scan.run_loaded hscan) hmember
        hfilter hnone⟩

def crossTree : FileTree :=
  ⟨[("a", .directory [("x.ts", .file (some ""))]),
    ("b",
      .directory [("y.ts", .file (some "import \x7b x \x7d from '../a/x';"))])]⟩

def crossOptions : ScanOptions :=
  { workingDirectory := ⟨"/"⟩ }

theorem cross_files_listed_once :
    ∃ report,
      unusedBelow crossTree crossOptions none [⟨"/a"⟩, ⟨"/b"⟩] = .ok report ∧
      (report.unused.countP fun unused => unused.file.same ⟨"/a/x.ts"⟩) ≤ 1 ∧
      (report.unused.countP fun unused =>
        unused.file.same ⟨"/b/y.ts"⟩) ≤ 1 := by
  obtain ⟨report, hreport, hcount, -⟩ :=
    unusedBelow_judges_root_by_root crossTree crossOptions none [⟨"/a"⟩, ⟨"/b"⟩]
      (by decide +kernel)
  have hfirst : [⟨"/a"⟩, ⟨"/b"⟩].countP
    (scanLoads crossTree crossOptions ⟨"/a/x.ts"⟩) = 1 := by decide +kernel
  have hsecond : [⟨"/a"⟩, ⟨"/b"⟩].countP
    (scanLoads crossTree crossOptions ⟨"/b/y.ts"⟩) = 1 := by decide +kernel
  exact ⟨report, hreport, hfirst ▸ hcount ⟨"/a/x.ts"⟩,
    hsecond ▸ hcount ⟨"/b/y.ts"⟩⟩

theorem import_across_roots_not_seen :
    unusedBelow crossTree crossOptions none [⟨"/a"⟩, ⟨"/b"⟩] =
        .ok ⟨[⟨"/a"⟩, ⟨"/b"⟩],
          [⟨⟨"/a/x.ts"⟩, .notImported⟩, ⟨⟨"/b/y.ts"⟩, .notImported⟩], 2, []⟩ ∧
      (∃ scan ∈ (Scan.run crossTree ⟨"/b"⟩ crossOptions).toOption,
        ∃ importer ∈ scan.corpus.modules, importer.path = ⟨"/b/y.ts"⟩ ∧
          ∃ record ∈ importer.imports,
            record.resolved = some (.file ⟨"/a/x.ts"⟩)) ∧
      unusedBelow crossTree crossOptions none [⟨"/a"⟩, ⟨"/a"⟩] =
        .ok ⟨[⟨"/a"⟩, ⟨"/a"⟩],
          [⟨⟨"/a/x.ts"⟩, .notImported⟩, ⟨⟨"/a/x.ts"⟩, .notImported⟩], 2, []⟩ := by
  decide +kernel

end ImportAtlas
