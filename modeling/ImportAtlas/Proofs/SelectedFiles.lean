import ImportAtlas.Corpus.Selection
import ImportAtlas.Proofs.PathTrail
import ImportAtlas.Proofs.RelativeSpecifier
import Mathlib.Data.List.Nodup
import Mathlib.Data.List.Perm.Basic

/-!
# Selecting by a walk and by a filter

The walk below a root leaves out what is excluded together with all that lies
below it.  It finds the same files as a filter over all files: those that are
included and have no excluded beginning, in path order and each once, however
the directories are listed.
-/

namespace ImportAtlas

/-- An entry whose directories list names, and each name once. -/
inductive Entry.Proper : Entry → Prop
  | file (text : Option String) : Proper (.file text)
  | link (target : Path) : Proper (.link target)
  | directory {entries : List (String × Entry)} :
      Path.AreNames (entries.map Prod.fst) → (entries.map Prod.fst).Nodup →
      (∀ item ∈ entries, item.2.Proper) → Proper (.directory entries)

def Entry.HasFile (entry : Entry) (names : List String) : Prop :=
  ∃ text, FileTree.entryBelow? names entry = some (.file text)

/-- Whether a file is included and no beginning of its names is excluded,
itself among them. -/
structure Entry.Selects (included excluded : String → Bool) (entry : Entry)
    (names : List String) : Prop where
  file : entry.HasFile names
  included : included (relativeText names) = true
  kept : ∀ above, above <+: names → above ≠ [] →
    excluded (relativeText above) = false

/-! ## Files of an entry -/

theorem Entry.hasFile_nil (entry : Entry) :
    entry.HasFile [] ↔ ∃ text, entry = .file text := by
  simp [HasFile, FileTree.entryBelow?]

private theorem lookup?_eq_some {entries : List (String × Entry)}
    (hdistinct : (entries.map Prod.fst).Nodup) {name : String} {entry : Entry} :
    FileTree.lookup? name entries = some entry ↔ (name, entry) ∈ entries := by
  induction entries with
  | nil => simp [FileTree.lookup?]
  | cons item entries ih =>
      obtain ⟨other, first⟩ := item
      rw [List.map_cons, List.nodup_cons] at hdistinct
      by_cases hname : other = name
      · subst hname
        have hnone : (other, entry) ∉ entries :=
          fun hmem => hdistinct.1 (List.mem_map.2 ⟨_, hmem, rfl⟩)
        simp [FileTree.lookup?, hnone, eq_comm]
      · have hne : name ≠ other := fun h => hname h.symm
        simp [FileTree.lookup?, hname, hne, ih hdistinct.2]

theorem hasFile_directory {entries : List (String × Entry)}
    (hdistinct : (entries.map Prod.fst).Nodup) {names : List String} :
    (Entry.directory entries).HasFile names ↔
      ∃ name below, names = name :: below ∧ ∃ entry, (name, entry) ∈ entries ∧
        entry.HasFile below := by
  cases names with
  | nil => simp [Entry.hasFile_nil]
  | cons name below =>
      simp only [Entry.HasFile, FileTree.entryBelow?, Option.bind_eq_some_iff,
        lookup?_eq_some hdistinct, List.cons.injEq]
      grind

/-! ## The walk -/

section Walk

variable {included excluded : String → Bool}

theorem selectEntries_eq_flatMap (above : List String)
    (entries : List (String × Entry)) :
    selectEntries included excluded above entries =
      entries.flatMap fun item =>
        if excluded (relativeText (above ++ [item.1])) then []
        else selectEntry included excluded (above ++ [item.1]) item.2 := by
  induction entries with
  | nil => rw [selectEntries, List.flatMap_nil]
  | cons item entries ih => rw [selectEntries, ih, List.flatMap_cons]

private theorem mem_selectEntries {above names : List String}
    {entries : List (String × Entry)} :
    names ∈ selectEntries included excluded above entries ↔
      ∃ item ∈ entries, excluded (relativeText (above ++ [item.1])) = false ∧
        names ∈ selectEntry included excluded (above ++ [item.1]) item.2 := by
  rw [selectEntries_eq_flatMap, List.mem_flatMap]
  refine exists_congr fun item => and_congr_right fun _ => ?_
  split <;> simp_all

theorem mem_selectEntry {entry : Entry} (hproper : entry.Proper)
    {above names : List String} :
    names ∈ selectEntry included excluded above entry ↔
      ∃ below, names = above ++ below ∧ entry.HasFile below ∧
        included (relativeText names) = true ∧
        ∀ start, start <+: below → start ≠ [] →
          excluded (relativeText (above ++ start)) = false := by
  induction hproper generalizing above with
  | file text =>
      have hhere {below : List String} : (Entry.file text).HasFile below ↔
          below = [] := by
        cases below <;> simp [Entry.HasFile, FileTree.entryBelow?]
      simp only [selectEntry, hhere]
      split <;> simp_all
  | link target =>
      have hnone {below : List String} :
          ¬(Entry.link target).HasFile below := by
        cases below <;> simp [Entry.HasFile, FileTree.entryBelow?]
      simp [selectEntry, hnone]
  | @directory entries _ hdistinct _ ih =>
      rw [selectEntry, mem_selectEntries]
      constructor
      · rintro ⟨item, hitem, hkept, hselected⟩
        obtain ⟨below, rfl, hfile, hincluded, hbelow⟩ :=
          (ih item hitem).1 hselected
        refine ⟨item.1 :: below, by simp, (hasFile_directory hdistinct).2 ⟨_, _,
          rfl, _, hitem, hfile⟩, hincluded, ?_⟩
        intro start hstart hne
        obtain rfl | ⟨more, rfl, hmore⟩ := List.prefix_cons_iff.1 hstart
        · contradiction
        · by_cases hnil : more = []
          · rw [hnil]
            exact hkept
          · have hexcluded := hbelow more hmore hnil
            rwa [List.append_assoc, List.singleton_append] at hexcluded
      · rintro ⟨below, rfl, hfile, hincluded, hkept⟩
        obtain ⟨name, below, rfl, entry, hitem, hfile⟩ :=
          (hasFile_directory hdistinct).1 hfile
        have hname := hkept [name] (by simp) (by simp)
        refine ⟨(name, entry), hitem, hname,
          (ih (name, entry) hitem).2 ⟨below, by simp, hfile, hincluded, ?_⟩⟩
        intro start hstart _
        have hexcluded :=
          hkept (name :: start) (List.cons_prefix_cons.2 ⟨rfl, hstart⟩)
            (by simp)
        rwa [List.append_assoc, List.singleton_append]

theorem mem_selected {entries : List (String × Entry)}
    (hproper : (Entry.directory entries).Proper) {names : List String} :
    names ∈ selectEntries included excluded [] entries ↔
      (Entry.directory entries).Selects included excluded names := by
  have hwalk : selectEntries included excluded [] entries =
      selectEntry included excluded [] (.directory entries) := by
    rw [selectEntry]
  rw [hwalk, mem_selectEntry hproper]
  constructor
  · rintro ⟨below, rfl, hfile, hincluded, hkept⟩
    exact ⟨hfile, hincluded, hkept⟩
  · intro h
    exact ⟨names, rfl, h.file, h.included, h.kept⟩

private theorem nodup_selectEntry {entry : Entry} (hproper : entry.Proper)
    (above : List String) :
    (selectEntry included excluded above entry).Nodup := by
  induction hproper generalizing above with
  | file text =>
      rw [selectEntry]
      split <;> simp
  | link target => simp [selectEntry]
  | @directory entries _ hdistinct hbelow ih =>
      rw [selectEntry, selectEntries_eq_flatMap, List.nodup_flatMap]
      constructor
      · intro item hitem
        split
        · exact List.nodup_nil
        · exact ih item hitem _
      · have hpairs : entries.Pairwise fun first second => first.1 ≠ second.1 :=
          List.pairwise_map.1 hdistinct
        refine hpairs.imp_of_mem ?_
        intro first second hfirst hsecond hne names hnames hnames'
        have hstart {item : String × Entry} (hitem : item ∈ entries)
            (hmem : names ∈ if excluded (relativeText (above ++ [item.1])) then
              []
              else selectEntry included excluded (above ++ [item.1]) item.2) :
            ∃ below, names = above ++ item.1 :: below := by
          split at hmem
          · contradiction
          · obtain ⟨below, hnames, -⟩ :=
              (mem_selectEntry (hbelow item hitem)).1 hmem
            exact ⟨below, by simpa using hnames⟩
        obtain ⟨below, rfl⟩ := hstart hfirst hnames
        obtain ⟨below', heq⟩ := hstart hsecond hnames'
        exact hne (List.cons.inj (List.append_cancel_left heq)).1

end Walk

/-! ## Sorted lists of files -/

namespace Path

private theorem sort_before {paths : List Path}
    (hdistinct : paths.Pairwise fun first second => first.same second ≠ true) :
    (sort paths).Pairwise Before := by
  have hsymm : ∀ {first second : Path}, first.same second ≠ true →
      second.same first ≠ true :=
    fun hne hsame => hne (same_symm hsame)
  have hother := (List.mergeSort_perm paths le).symm.pairwise hdistinct hsymm
  refine ((sort_pairwise paths).and hother).imp ?_
  rintro first second ⟨hle, hne⟩
  exact (le_iff.1 hle).resolve_right hne

theorem nodup_of_before {paths : List Path} (h : paths.Pairwise Before) :
    paths.Nodup := by
  refine h.imp ?_
  rintro first second hbefore rfl
  exact hbefore.not_same (same_refl first)

private theorem eq_of_before {first second : List Path}
    (hfirst : first.Pairwise Before) (hsecond : second.Pairwise Before)
    (h : ∀ path, path ∈ first ↔ path ∈ second) : first = second := by
  have hperm :=
    (List.perm_ext_iff_of_nodup (nodup_of_before hfirst)
      (nodup_of_before hsecond)).2 h
  exact hperm.eq_of_pairwise (fun _ _ _ _ hbefore hafter =>
    absurd hafter hbefore.not_before) hfirst hsecond

theorem components_foldl_joinName {root : Path} (hroot : root.isAbsolute = true)
    {names : List String} (hnames : AreNames names) :
    (names.foldl joinName root).isAbsolute = true ∧
      (names.foldl joinName root).components = root.components ++
        names.map .normal := by
  induction names using List.reverseRecOn with
  | nil => simp [hroot]
  | append_singleton names name ih =>
      obtain ⟨habsolute, hcomponents⟩ :=
        ih fun other hother => hnames other (List.mem_append_left _ hother)
      have hname := hnames name (by simp)
      rw [List.foldl_append, List.foldl_cons, List.foldl_nil,
        isAbsolute_joinName _ hname, components_joinName _ hname habsolute,
        hcomponents]
      simp [habsolute]

theorem foldl_joinName_inj {root : Path} (hroot : root.isAbsolute = true)
    {first second : List String} (hfirst : AreNames first)
    (hsecond : AreNames second)
    (h : (first.foldl joinName root).same (second.foldl joinName root) = true) :
    first = second := by
  rw [same_iff, (components_foldl_joinName hroot hfirst).2,
    (components_foldl_joinName hroot hsecond).2] at h
  exact List.map_injective_iff.2 (fun _ _ => Component.normal.inj)
    (List.append_cancel_left h)

end Path

theorem Entry.Proper.areNames {entry : Entry} (hproper : entry.Proper)
    {names : List String} (hfile : entry.HasFile names) :
    Path.AreNames names := by
  induction hproper generalizing names with
  | file text =>
    cases names <;> simp_all [HasFile, FileTree.entryBelow?, Path.AreNames]
  | link target => cases names <;> simp_all [HasFile, FileTree.entryBelow?]
  | directory hnames hdistinct _ ih =>
      obtain ⟨name, below, rfl, entry, hitem, hfile⟩ :=
        (hasFile_directory hdistinct).1 hfile
      rintro other hother
      rcases List.mem_cons.1 hother with rfl | hother
      · exact hnames _ (List.mem_map.2 ⟨_, hitem, rfl⟩)
      · exact ih _ hitem hfile other hother

/-! ## Files below a root -/

def filesBelow (included excluded : String → Bool) (root : Path)
    (entries : List (String × Entry)) : List Path :=
  Path.sort ((selectEntries included excluded [] entries).map fun names =>
    names.foldl Path.joinName root)

section Files

variable {tree : FileTree} {root : Path} {entries : List (String × Entry)}
    (included excluded : String → Bool)

theorem mem_filesBelow (hproper : (Entry.directory entries).Proper)
    {path : Path} :
    path ∈ filesBelow included excluded root entries ↔
      ∃ names, path = names.foldl Path.joinName root ∧
        (Entry.directory entries).Selects included excluded names := by
  simp only [filesBelow, Path.mem_sort, List.mem_map, mem_selected hproper]
  exact exists_congr fun names => and_comm.trans (and_congr_left' eq_comm)

theorem filesBelow_before (hroot : root.isAbsolute = true)
    (hproper : (Entry.directory entries).Proper) :
    (filesBelow included excluded root entries).Pairwise Path.Before := by
  have hdistinct : (selectEntries included excluded [] entries).Nodup := by
    have hnodup :
      (selectEntry included excluded [] (.directory entries)).Nodup :=
        nodup_selectEntry hproper []
    rwa [selectEntry] at hnodup
  refine Path.sort_before (List.pairwise_map.2 (hdistinct.imp_of_mem ?_))
  intro first second hfirst hsecond hne hsame
  have hnames := hproper.areNames ((mem_selected hproper).1 hfirst).file
  have hnames' := hproper.areNames ((mem_selected hproper).1 hsecond).file
  exact hne (Path.foldl_joinName_inj hroot hnames hnames' hsame)

theorem findFiles_directory {includes excludes : List String}
    {inclusions exclusions : List (List Glob.Token)}
    (hroot : tree.find root = .ok (.directory entries))
    (hincludes : Glob.readAll includes = .ok inclusions)
    (hexcludes : Glob.readAll excludes = .ok exclusions) :
    findFiles tree root includes excludes =
      .ok (filesBelow (Glob.acceptsAny inclusions) (Glob.acceptsAny exclusions)
        root entries) := by
  rw [findFiles, hroot]
  simp only [hincludes, hexcludes, filesBelow]

end Files

/--
Selection below a directory gives one list: in path order, without repetition,
of exactly the files that are included and have no excluded beginning.
-/
theorem findFiles_is_filter {tree : FileTree} {root : Path}
    {entries : List (String × Entry)} {includes excludes : List String}
    {inclusions exclusions : List (List Glob.Token)}
    (hroot : tree.find root = .ok (.directory entries))
    (hproper : (Entry.directory entries).Proper)
    (hincludes : Glob.readAll includes = .ok inclusions)
    (hexcludes : Glob.readAll excludes = .ok exclusions) :
    ∃ files, findFiles tree root includes excludes = .ok files ∧ files.Nodup ∧
      files.Pairwise Path.Before ∧
      (∀ path, path ∈ files ↔ ∃ names, path = names.foldl Path.joinName root ∧
        (Entry.directory entries).Selects (Glob.acceptsAny inclusions)
          (Glob.acceptsAny exclusions) names) ∧
      ∀ other : List Path, other.Pairwise Path.Before →
        (∀ path, path ∈ other ↔ path ∈ files) → other = files := by
  have hsorted := filesBelow_before (Glob.acceptsAny inclusions)
    (Glob.acceptsAny exclusions) (FileTree.isAbsolute_of_find hroot) hproper
  exact ⟨_, findFiles_directory hroot hincludes hexcludes,
    Path.nodup_of_before hsorted, hsorted,
    fun _ => mem_filesBelow _ _ hproper, fun _ hother hmembers =>
      Path.eq_of_before hother hsorted hmembers⟩

def gardenEntries : List (String × Entry) :=
  [("b-c", .directory [("d.ts", .file (some ""))]),
    ("link.ts", .link ⟨"b/z.ts"⟩),
    ("b",
      .directory [("z.ts", .file none),
        ("gen", .directory [("x.ts", .file (some ""))]),
        ("a.md", .file (some ""))])]

def gardenTree : FileTree :=
  ⟨[("garden", .directory gardenEntries)]⟩

instance (component : Path.Component) : Decidable component.Inner :=
  decidable_of_iff
    (Path.Component.ofSegment? component.segment = some component ∧
      '/' ∉ component.segment.toList)
    ⟨fun ⟨hread, hslash⟩ => ⟨hread, hslash⟩, fun h => ⟨h.read, h.noSlash⟩⟩

instance (names : List String) : Decidable (Path.AreNames names) :=
  inferInstanceAs
    (Decidable (∀ name ∈ names, (Path.Component.normal name).Inner))

theorem gardenEntries_proper : (Entry.directory gardenEntries).Proper := by
  have hgenerated : (Entry.directory [("x.ts", .file (some ""))]).Proper :=
    .directory (by decide) (by decide) (by simp [Entry.Proper.file])
  have hbed : (Entry.directory
      [("z.ts", .file none), ("gen", .directory [("x.ts", .file (some ""))]),
        ("a.md", .file (some ""))]).Proper :=
    .directory (by decide) (by decide) (by simp [Entry.Proper.file, hgenerated])
  have hpath : (Entry.directory [("d.ts", .file (some ""))]).Proper :=
    .directory (by decide) (by decide) (by simp [Entry.Proper.file])
  exact .directory (by decide) (by decide)
    (by simp [gardenEntries, Entry.Proper.link, hbed, hpath])

def scriptGlobs : List (List Glob.Token) :=
  [[.directoriesBefore, .anyMany, .literal '.', .literal 't', .literal 's']]

def generatedGlobs : List (List Glob.Token) :=
  [[.directoriesBefore, .literal 'g', .literal 'e', .literal 'n']]

theorem garden_files_in_path_order :
    gardenTree.find ⟨"/garden/"⟩ = .ok (.directory gardenEntries) ∧
      (Entry.directory gardenEntries).Proper ∧
      findFiles gardenTree ⟨"/garden/"⟩ ["**/*.ts"] ["**/gen"] =
        .ok [⟨"/garden/b/z.ts"⟩, ⟨"/garden/b-c/d.ts"⟩] := by
  have hroot : gardenTree.find ⟨"/garden/"⟩ = .ok (.directory gardenEntries) :=
    rfl
  have hincludes : Glob.readAll ["**/*.ts"] = .ok scriptGlobs := rfl
  have hexcludes : Glob.readAll ["**/gen"] = .ok generatedGlobs := rfl
  obtain ⟨files, hfiles, -, -, hmem, hunique⟩ :=
    findFiles_is_filter hroot gardenEntries_proper hincludes hexcludes
  have hbefore : Path.Before ⟨"/garden/b/z.ts"⟩ ⟨"/garden/b-c/d.ts"⟩ := by
    rw [Path.Before]
    decide +kernel
  have hselected : selectEntries (Glob.acceptsAny scriptGlobs)
      (Glob.acceptsAny generatedGlobs) [] gardenEntries =
      [["b-c", "d.ts"], ["b", "z.ts"]] := by
    decide +kernel
  have hmembers (path : Path) :
      path ∈ [⟨"/garden/b/z.ts"⟩, ⟨"/garden/b-c/d.ts"⟩] ↔ path ∈ files := by
    have hpath : ["b", "z.ts"].foldl Path.joinName ⟨"/garden/"⟩ =
      ⟨"/garden/b/z.ts"⟩ := by decide +kernel
    have hpath' : ["b-c", "d.ts"].foldl Path.joinName ⟨"/garden/"⟩ =
      ⟨"/garden/b-c/d.ts"⟩ := by decide +kernel
    simp only [hmem, ← mem_selected gardenEntries_proper, hselected, ← hpath,
      ← hpath', List.mem_cons, List.not_mem_nil, or_false]
    grind
  exact ⟨hroot, gardenEntries_proper,
    by rw [hfiles, hunique _ (by simp [hbefore]) hmembers]⟩

end ImportAtlas
