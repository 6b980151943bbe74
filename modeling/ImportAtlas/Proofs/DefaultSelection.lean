import ImportAtlas.Corpus.Options
import ImportAtlas.Proofs.GlobMatching
import ImportAtlas.Proofs.PlainPath
import ImportAtlas.Proofs.SelectedFiles

/-!
# The files that are scanned by default

Without globs of the user a scan takes the files with the extension of a
script, except where a foreign directory or a file of that name is on the way.
A backslash in a name separates for this, as it does everywhere in the names
that globs see.
-/

namespace ImportAtlas

open Glob (literals)

/-! ## The default globs -/

def scriptInclusions : List (List Glob.Token) :=
  [[.directoriesBefore, .anyMany, .literal '.',
    .alternatives (scriptExtensions.map literals)]]

theorem readAll_defaultInclude :
    Glob.readAll defaultInclude = .ok scriptInclusions := (rfl)

def exclusionsOf (names : List String) : List (List Glob.Token) :=
  names.flatMap fun name =>
    [.directoriesBefore :: literals name,
      .directoriesBefore :: (literals name ++ [.everythingBelow])]

theorem readAll_defaultExclude :
    Glob.readAll defaultExclude = .ok (exclusionsOf foreignDirectories) := (rfl)

theorem acceptsAny_scriptInclusions {text : String} :
    Glob.acceptsAny scriptInclusions text = true ↔
      ∃ extension ∈ scriptExtensions,
        ∃ stem, text = stem ++ "." ++ extension := by
  rw [← Glob.accepts_extension_iff (by decide) fun _ hextension =>
    (scriptExtensions_plain hextension).nonempty]
  simp [Glob.acceptsAny, scriptInclusions]

private theorem acceptsAny_exclusionsOf {names : List String}
    (hnames : ∀ name ∈ names, name ≠ "" ∧ '/' ∉ name.toList) {text : String} :
    Glob.acceptsAny (exclusionsOf names) text = true ↔
      ∃ name ∈ names, name.toList ∈ Path.splitAtSlash text.toList := by
  simp only [Glob.acceptsAny, exclusionsOf, List.any_eq_true, List.mem_flatMap]
  constructor
  · rintro ⟨tokens, ⟨name, hname, htokens⟩, haccepted⟩
    refine ⟨name, hname, (Glob.accepts_segment_iff (hnames name hname).1
      (hnames name hname).2).1 ?_⟩
    simp only [List.mem_cons, List.not_mem_nil, or_false] at htokens
    rcases htokens with rfl | rfl
    · exact .inl haccepted
    · exact .inr haccepted
  · rintro ⟨name, hname, hsegment⟩
    rcases (Glob.accepts_segment_iff (hnames name hname).1
      (hnames name hname).2).2 hsegment with haccepted | haccepted
    · exact ⟨_, ⟨name, hname, by simp⟩, haccepted⟩
    · exact ⟨_, ⟨name, hname, by simp⟩, haccepted⟩

/-! ## Names on the way -/

def partsOfName (name : String) : List String :=
  (Path.splitAtSlash (Path.unifySeparators name).toList).map String.ofList

private theorem partsOfName_of_noBackslash {name : String}
    (hslash : '/' ∉ name.toList) (hbackslash : '\\' ∉ name.toList) :
    partsOfName name = [name] := by
  rw [partsOfName, Path.unifySeparators_of_noBackslash hbackslash,
    Path.splitAtSlash_of_not_mem hslash]
  simp

private theorem splitAtSlash_relativeText {names : List String}
    (hnames : Path.AreNames names) (hne : names ≠ []) :
    Path.splitAtSlash (relativeText names).toList =
      (names.flatMap partsOfName).map String.toList := by
  have hpieces :
      Path.splitAtSlash (['/'].intercalate (names.map String.toList)) =
        names.map String.toList := by
    refine Path.splitAtSlash_intercalate ?_ (by simpa using hne)
    intro piece hpiece
    obtain ⟨name, hname, rfl⟩ := List.mem_map.1 hpiece
    exact (hnames name hname).noSlash_name
  have hletters : (relativeText names).toList =
      (['/'].intercalate (names.map String.toList)).map Path.unifyChar := by
    simp [relativeText, Path.unifySeparators_eq]
  rw [hletters, Path.splitAtSlash_unify, hpieces]
  simp [List.flatMap_map, List.map_flatMap, partsOfName,
    Path.unifySeparators_eq, Function.comp_def]

private theorem foreign_plain {name : String} (h : name ∈ foreignDirectories) :
    name ≠ "" ∧ '/' ∉ name.toList := by
  have hall : ∀ name ∈ foreignDirectories, name ≠ "" ∧ '/' ∉ name.toList := by
    decide
  exact hall name h

theorem excluded_iff {names : List String} (hnames : Path.AreNames names)
    (hne : names ≠ []) :
    Glob.acceptsAny (exclusionsOf foreignDirectories)
      (relativeText names) = true ↔
      ∃ name ∈ names, ∃ part ∈ partsOfName name, part ∈ foreignDirectories := by
  rw [acceptsAny_exclusionsOf fun _ => foreign_plain,
    splitAtSlash_relativeText hnames hne]
  simp only [List.mem_map, List.mem_flatMap, String.toList_inj, exists_eq_right]
  grind

theorem kept_iff {names : List String} (hnames : Path.AreNames names) :
    (∀ above, above <+: names → above ≠ [] →
        Glob.acceptsAny (exclusionsOf foreignDirectories)
        (relativeText above) = false) ↔
      ∀ name ∈ names, ∀ part ∈ partsOfName name, part ∉ foreignDirectories := by
  constructor
  · intro hkept name hname part hpart hforeign
    have hne : names ≠ [] := List.ne_nil_of_mem hname
    have hexcluded :=
      (excluded_iff hnames hne).2 ⟨name, hname, part, hpart, hforeign⟩
    rw [hkept names (List.prefix_refl names) hne] at hexcluded
    exact Bool.false_ne_true hexcluded
  · intro hown above habove hne
    rw [← Bool.not_eq_true,
      excluded_iff (fun name hname => hnames name (habove.subset hname)) hne]
    rintro ⟨name, hname, part, hpart, hforeign⟩
    exact hown name (habove.subset hname) part hpart hforeign

theorem mem_defaultFiles {root path : Path} {entries : List (String × Entry)}
    (hproper : (Entry.directory entries).Proper) :
    path ∈ filesBelow (Glob.acceptsAny scriptInclusions)
      (Glob.acceptsAny (exclusionsOf foreignDirectories)) root entries ↔
      ∃ names, path = names.foldl Path.joinName root ∧
        (Entry.directory entries).HasFile names ∧
        (∃ extension ∈ scriptExtensions, ∃ stem,
          relativeText names = stem ++ "." ++ extension) ∧
        ∀ name ∈ names, ∀ part ∈ partsOfName name,
          part ∉ foreignDirectories := by
  rw [mem_filesBelow _ _ hproper]
  refine exists_congr fun names => and_congr_right fun _ => ?_
  constructor
  · intro h
    exact ⟨h.file, acceptsAny_scriptInclusions.1 h.included,
      (kept_iff (hproper.areNames h.file)).1 h.kept⟩
  · rintro ⟨hfile, hextension, hown⟩
    exact ⟨hfile, acceptsAny_scriptInclusions.2 hextension,
      (kept_iff (hproper.areNames hfile)).2 hown⟩

/--
By default a scan takes the files with the extension of a script that have no
foreign name on their way.  A backslash in a name separates for this; without
backslashes the names count as they are.
-/
theorem default_selection_by_names {tree : FileTree} {root : Path}
    {entries : List (String × Entry)}
    (hroot : tree.find root = .ok (.directory entries))
    (hproper : (Entry.directory entries).Proper) :
    ∃ files, findFiles tree root defaultInclude defaultExclude = .ok files ∧
      files.Nodup ∧
      files.Pairwise Path.Before ∧
      (∀ path, path ∈ files ↔ ∃ names, path = names.foldl Path.joinName root ∧
        (Entry.directory entries).HasFile names ∧
        (∃ extension ∈ scriptExtensions, ∃ stem,
          relativeText names = stem ++ "." ++ extension) ∧
        ∀ name ∈ names, ∀ part ∈ partsOfName name, part ∉ foreignDirectories) ∧
      ∀ names, (Entry.directory entries).HasFile names →
        (∀ name ∈ names, '\\' ∉ name.toList) →
        (names.foldl Path.joinName root ∈ files ↔
          (∃ extension ∈ scriptExtensions, ∃ stem,
            relativeText names = stem ++ "." ++ extension) ∧
            ∀ name ∈ names, name ∉ foreignDirectories) := by
  have habsolute := FileTree.isAbsolute_of_find hroot
  have hsorted := filesBelow_before (Glob.acceptsAny scriptInclusions)
    (Glob.acceptsAny (exclusionsOf foreignDirectories)) habsolute hproper
  refine ⟨_, findFiles_directory hroot readAll_defaultInclude
    readAll_defaultExclude, Path.nodup_of_before hsorted,
    hsorted, fun _ =>
      mem_defaultFiles hproper, fun names hfile hbackslash => ?_⟩
  have hnames := hproper.areNames hfile
  have hparts :
      (∀ name ∈ names, ∀ part ∈ partsOfName name, part ∉ foreignDirectories) ↔
      ∀ name ∈ names, name ∉ foreignDirectories := by
    refine forall₂_congr fun name hname => ?_
    rw [partsOfName_of_noBackslash (hnames name hname).noSlash_name
      (hbackslash name hname)]
    simp
  rw [mem_defaultFiles hproper]
  constructor
  · rintro ⟨others, hpath, hfile', hextension, hown⟩
    have hsame := Path.same_refl (names.foldl Path.joinName root)
    nth_rewrite 2 [hpath] at hsame
    obtain rfl :=
      Path.foldl_joinName_inj habsolute hnames (hproper.areNames hfile') hsame
    exact ⟨hextension, hparts.1 hown⟩
  · rintro ⟨hextension, hown⟩
    exact ⟨names, rfl, hfile, hextension, hparts.2 hown⟩

def harborEntries : List (String × Entry) :=
  [("builder", .directory
    [("my.dist", .directory [(".ts", .file none), ("dist", .file none)])]),
    ("dist", .directory [("x.ts", .file none)])]

theorem harborEntries_proper : (Entry.directory harborEntries).Proper := by
  have hinner :
      (Entry.directory [(".ts", .file none), ("dist", .file none)]).Proper :=
    .directory (by decide) (by decide) (by simp [Entry.Proper.file])
  have hbuilder :
      (Entry.directory [("my.dist",
        .directory [(".ts", .file none), ("dist", .file none)])]).Proper :=
    .directory (by decide) (by decide) (by simp [hinner])
  have hforeign : (Entry.directory [("x.ts", .file none)]).Proper :=
    .directory (by decide) (by decide) (by simp [Entry.Proper.file])
  exact .directory (by decide) (by decide)
    (by simp [harborEntries, hbuilder, hforeign])

theorem harbor_takes_hidden_script :
    FileTree.find ⟨harborEntries⟩ ⟨"/"⟩ = .ok (.directory harborEntries) ∧
      (Entry.directory harborEntries).Proper ∧
      ∃ files,
        findFiles ⟨harborEntries⟩ ⟨"/"⟩ defaultInclude defaultExclude =
          .ok files ∧
        ⟨"/builder/my.dist/.ts"⟩ ∈ files ∧ ⟨"/dist/x.ts"⟩ ∉ files := by
  have hroot : FileTree.find ⟨harborEntries⟩ ⟨"/"⟩ =
    .ok (.directory harborEntries) := rfl
  obtain ⟨files, hfiles, -, -, -, hplain⟩ :=
    default_selection_by_names hroot harborEntries_proper
  have hhidden : ["builder", "my.dist", ".ts"].foldl Path.joinName ⟨"/"⟩ =
    ⟨"/builder/my.dist/.ts"⟩ := by decide +kernel
  have hforeign : ["dist", "x.ts"].foldl Path.joinName ⟨"/"⟩ =
    ⟨"/dist/x.ts"⟩ := by decide +kernel
  refine ⟨hroot, harborEntries_proper, files, hfiles, ?_, ?_⟩
  · rw [← hhidden, hplain _ ⟨none, rfl⟩ (by decide)]
    exact ⟨⟨"ts", by decide, "builder/my.dist/", by decide +kernel⟩, by decide⟩
  · rw [← hforeign, hplain _ ⟨none, rfl⟩ (by decide)]
    exact fun htaken => htaken.2 "dist" (by decide) (by decide)

/-- A backslash in the name of a file makes it look as if it lay in a foreign
directory. -/
theorem backslash_name_taken_for_foreign :
    (Entry.directory [("node_modules\\x.ts", .file none)]).HasFile
      ["node_modules\\x.ts"] ∧
      relativeText ["node_modules\\x.ts"] = "node_modules/x" ++ "." ++ "ts" ∧
      "ts" ∈ scriptExtensions ∧
      "node_modules\\x.ts" ∉ foreignDirectories ∧
      findFiles ⟨[("node_modules\\x.ts", .file none)]⟩ ⟨"/"⟩ defaultInclude
        defaultExclude = .ok [] := by
  refine ⟨⟨none, rfl⟩, ?_⟩
  decide +kernel

end ImportAtlas
