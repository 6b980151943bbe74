import ImportAtlas.FileTree.Change
import ImportAtlas.Resolution.BaseDirectory
import ImportAtlas.Proofs.TreeChange

/-!
# The nearest manifest

The base directory of a scan is set by one manifest: the first one of the
deepest directory, at or above the root, that holds any.  A manifest that sets
nothing is not passed over.  Files that no look for a manifest leads to may
change freely; when the root is spelled out without double dots and links,
these are the manifests of the directories further up and a second manifest
beside the deciding one.
-/

namespace ImportAtlas

/-! ## Manifests of a directory -/

def HoldsManifest (tree : FileTree) (directory : Path) : Prop :=
  ∃ name ∈ Manifest.fileNames, tree.isFile (directory.joinName name) = true

instance (tree : FileTree) (directory : Path) :
    Decidable (HoldsManifest tree directory) :=
  inferInstanceAs (Decidable (∃ name ∈ Manifest.fileNames, _))

def decidingManifest (tree : FileTree) (directory : Path) : Path :=
  if tree.isFile (directory.joinName "tsconfig.json") then
    directory.joinName "tsconfig.json"
  else directory.joinName "jsconfig.json"

def baseSetIn (tree : FileTree) (directory : Path) : Option Path :=
  match tree.readText (decidingManifest tree directory) with
  | .error _ => none
  | .ok text =>
    (Manifest.Settings.read? text).bind fun settings =>
      settings.baseUrl.map fun url => (directory.join ⟨url⟩).normalize

theorem fileNames_inner {name : String} (h : name ∈ Manifest.fileNames) :
    (Path.Component.normal name).Inner := by
  simp only [Manifest.fileNames, List.mem_cons, List.not_mem_nil, or_false] at h
  rcases h with rfl | rfl <;>
    exact Path.Component.inner_normal (by decide) (by decide) (by decide)
      (by decide)

theorem decidingManifest_cases (tree : FileTree) (directory : Path) :
    ∃ name ∈ Manifest.fileNames,
      decidingManifest tree directory = directory.joinName name ∧
      (tree.isFile (directory.joinName "tsconfig.json") = true →
        name = "tsconfig.json") := by
  rw [decidingManifest]
  split
  · exact ⟨"tsconfig.json", by decide, rfl, fun _ => rfl⟩
  · exact ⟨"jsconfig.json", by decide, rfl, fun hfirst => absurd hfirst ‹_›⟩

private theorem find?_manifest (tree : FileTree) (directory : Path) :
    (Manifest.fileNames.map directory.joinName).find? tree.isFile =
      if HoldsManifest tree directory then
        some (decidingManifest tree directory) else none := by
  simp only [HoldsManifest, decidingManifest, Manifest.fileNames]
  cases hfirst : tree.isFile (directory.joinName "tsconfig.json") <;>
    cases hsecond : tree.isFile (directory.joinName "jsconfig.json") <;>
    simp [hfirst, hsecond]

private theorem manifestBase_deciding (tree : FileTree) {directory : Path}
    (h : directory.isAbsolute = true) :
    manifestBase tree (decidingManifest tree directory) =
      baseSetIn tree directory := by
  obtain ⟨name, hname, hdeciding, -⟩ := decidingManifest_cases tree directory
  have hbeside := Path.normalize_beside h (fileNames_inner hname)
  unfold manifestBase baseSetIn
  rw [hdeciding]
  cases tree.readText (directory.joinName name) with
  | error _ => rfl
  | ok text => simp only [hbeside]

/-! ## The deepest directory that holds one -/

/-- The directories at or above a root, from the inside out; a root that is a
file is none of them. -/
def directoriesAbove (tree : FileTree) (root : Path) : List Path :=
  ((if tree.isFile root then root.parent?
    else some root).map Path.ancestors).getD []

structure NearestManifest (tree : FileTree) (root directory : Path) : Prop where
  above : directory ∈ directoriesAbove tree root
  holds : HoldsManifest tree directory
  deepest : ∀ other ∈ directoriesAbove tree root, HoldsManifest tree other →
    other.depth ≤ directory.depth

instance (tree : FileTree) (root directory : Path) :
    Decidable (NearestManifest tree root directory) :=
  decidable_of_iff
    (directory ∈ directoriesAbove tree root ∧ HoldsManifest tree directory ∧
      ∀ other ∈ directoriesAbove tree root, HoldsManifest tree other →
        other.depth ≤ directory.depth)
    ⟨fun h => ⟨h.1, h.2.1, h.2.2⟩, fun h => ⟨h.above, h.holds, h.deepest⟩⟩

/-- A file holds no manifest, so it does not matter whether the search starts
above it. -/
theorem ancestors_eq_directoriesAbove (tree : FileTree) {root : Path}
    (hroot : root.isAbsolute = true) :
    ∃ skipped, root.ancestors = skipped ++ directoriesAbove tree root ∧
      ∀ directory ∈ skipped, ¬HoldsManifest tree directory := by
  rw [directoriesAbove]
  by_cases hfile : tree.isFile root = true
  · refine ⟨[root], ?_, ?_⟩
    · rw [if_pos hfile, List.singleton_append]
      exact Path.ancestors_eq_cons hroot
    · rintro directory hdirectory ⟨name, hname, hheld⟩
      obtain rfl := List.mem_singleton.1 hdirectory
      rw [FileTree.not_isFile_joinName hfile (fileNames_inner hname)] at hheld
      contradiction
  · exact ⟨[], by rw [if_neg hfile]; rfl, by simp⟩

theorem findSome?_skip {tree : FileTree} {skipped : List Path}
    (h : ∀ directory ∈ skipped, ¬HoldsManifest tree directory)
    (rest : List Path) :
    ((skipped ++ rest).findSome? fun directory =>
        if HoldsManifest tree directory then
          some (decidingManifest tree directory) else none) =
      rest.findSome? fun directory =>
        if HoldsManifest tree directory then
          some (decidingManifest tree directory) else none := by
  have hnone : skipped.findSome? (fun directory =>
      if HoldsManifest tree directory then
        some (decidingManifest tree directory) else none) = none :=
    List.findSome?_eq_none_iff.2 fun directory hdirectory =>
      if_neg (h directory hdirectory)
  rw [List.findSome?_append, hnone, Option.none_or]

section Root

variable {tree : FileTree} {root : Path} (hroot : root.isAbsolute = true)
include hroot

theorem findManifest_eq :
    findManifest tree root = root.ancestors.findSome? fun directory =>
      if HoldsManifest tree directory then
        some (decidingManifest tree directory) else none := by
  have hsearch : findManifest tree root =
      (directoriesAbove tree root).findSome? fun directory =>
      if HoldsManifest tree directory then
        some (decidingManifest tree directory) else none := by
    simp only [findManifest, find?_manifest, directoriesAbove]
    cases (if tree.isFile root then root.parent? else some root) <;> rfl
  obtain ⟨skipped, hancestors, hskipped⟩ :=
    ancestors_eq_directoriesAbove tree hroot
  rw [hsearch, hancestors, findSome?_skip hskipped]

theorem NearestManifest.split {directory : Path}
    (h : NearestManifest tree root directory) :
    ∃ nearer further, root.ancestors = nearer ++ directory :: further ∧
      ∀ other ∈ nearer, directory.depth < other.depth ∧
        ¬HoldsManifest tree other := by
  obtain ⟨skipped, hancestors, hskipped⟩ :=
    ancestors_eq_directoriesAbove tree hroot
  obtain ⟨nearer, further, hsplit⟩ := List.append_of_mem h.above
  have hordered := Path.ancestors_pairwise hroot
  rw [hancestors, hsplit, ← List.append_assoc] at hordered
  refine ⟨skipped ++ nearer, further,
    by rw [hancestors, hsplit, List.append_assoc], fun other hother => ?_⟩
  have hdeeper :=
    (List.pairwise_append.1 hordered).2.2 other hother directory
      List.mem_cons_self
  refine ⟨hdeeper, fun hholds => ?_⟩
  rcases List.mem_append.1 hother with hother | hother
  · exact hskipped other hother hholds
  · have hle :=
      h.deepest other (by rw [hsplit]; exact List.mem_append_left _ hother)
        hholds
    omega

theorem NearestManifest.mem_ancestors {directory : Path}
    (h : NearestManifest tree root directory) :
    directory ∈ root.ancestors := by
  obtain ⟨skipped, hancestors, -⟩ := ancestors_eq_directoriesAbove tree hroot
  rw [hancestors]
  exact List.mem_append_right skipped h.above

private theorem exists_nearestManifest
    (h : ∃ directory ∈ directoriesAbove tree root,
      HoldsManifest tree directory) :
    ∃ directory, NearestManifest tree root directory := by
  obtain ⟨skipped, hancestors, -⟩ := ancestors_eq_directoriesAbove tree hroot
  have hordered := Path.ancestors_pairwise hroot
  rw [hancestors] at hordered
  obtain ⟨directory, hfound⟩ : ∃ directory,
      (directoriesAbove tree root).find?
        (fun other => decide (HoldsManifest tree other)) = some directory := by
    obtain ⟨directory, hmem, hholds⟩ := h
    exact Option.isSome_iff_exists.1
      (List.find?_isSome.2 ⟨directory, hmem, decide_eq_true hholds⟩)
  obtain ⟨hholds, nearer, further, hsplit, hnearer⟩ :=
    List.find?_eq_some_iff_append.1 hfound
  refine ⟨directory, List.mem_of_find?_eq_some hfound, of_decide_eq_true hholds,
    fun other hother hheld => ?_⟩
  have hrest := (List.pairwise_append.1 hordered).2.1
  rw [hsplit] at hother hrest
  rcases List.mem_append.1 hother with hother | hother
  · have hnot := hnearer other hother
    simp [hheld] at hnot
  · rcases List.mem_cons.1 hother with rfl | hother
    · exact Nat.le_refl _
    · have hless :=
        (List.pairwise_cons.1 (List.pairwise_append.1 hrest).2.1).1 other hother
      exact Nat.le_of_lt hless

theorem findManifest_of_split {directory : Path} {nearer further : List Path}
    (hsplit : root.ancestors = nearer ++ directory :: further)
    (hnearer : ∀ other ∈ nearer, ¬HoldsManifest tree other)
    (hholds : HoldsManifest tree directory) :
    findManifest tree root = some (decidingManifest tree directory) := by
  rw [findManifest_eq hroot, hsplit, findSome?_skip hnearer,
    List.findSome?_cons, if_pos hholds]

private theorem findManifest_eq_none
    (h : ∀ directory ∈ directoriesAbove tree root,
      ¬HoldsManifest tree directory) :
    findManifest tree root = none := by
  obtain ⟨skipped, hancestors, hskipped⟩ :=
    ancestors_eq_directoriesAbove tree hroot
  rw [findManifest_eq hroot, List.findSome?_eq_none_iff, hancestors]
  intro directory hdirectory
  rcases List.mem_append.1 hdirectory with hdirectory | hdirectory
  · exact if_neg (hskipped directory hdirectory)
  · exact if_neg (h directory hdirectory)

private theorem NearestManifest.discoverBase_eq {directory : Path}
    (h : NearestManifest tree root directory)
    (workingDirectory : Path) :
    discoverBase tree none none root workingDirectory =
      baseSetIn tree directory := by
  obtain ⟨nearer, further, hsplit, hnearer⟩ := h.split hroot
  have hdirectory := h.mem_ancestors hroot
  have hfound :=
    findManifest_of_split hroot hsplit
      (fun other hother => (hnearer other hother).2) h.holds
  show (findManifest tree root).bind (manifestBase tree) = _
  rw [hfound, Option.bind_some,
    manifestBase_deciding tree (Path.mem_ancestors hroot hdirectory).1]

end Root

/-! ## What may change -/

/-- The manifests that a search looks for until it ends in a directory. -/
inductive LooksFor (tree : FileTree) (root directory : Path) : Path → Prop
  | nearer {other : Path} {name : String} (hother : other ∈ root.ancestors)
      (hdeeper : directory.depth < other.depth)
      (hname : name ∈ Manifest.fileNames) :
      LooksFor tree root directory (other.joinName name)
  | first : LooksFor tree root directory (directory.joinName "tsconfig.json")
  | deciding : LooksFor tree root directory (decidingManifest tree directory)

theorem LooksFor.exists_directory {tree : FileTree} {root directory path : Path}
    (hdirectory : directory ∈ root.ancestors)
    (h : LooksFor tree root directory path) :
    ∃ above name, above ∈ root.ancestors ∧ directory.depth ≤ above.depth ∧
      name ∈ Manifest.fileNames ∧
      path = above.joinName name ∧
      (tree.isFile (directory.joinName "tsconfig.json") = true →
        above.depth = directory.depth →
        name = "tsconfig.json") := by
  cases h with
  | @nearer other name hother hdeeper hname =>
      exact ⟨other, name, hother, Nat.le_of_lt hdeeper, hname, rfl,
        fun _ hdepth => absurd hdepth (Nat.ne_of_gt hdeeper)⟩
  | first =>
    exact ⟨directory, "tsconfig.json", hdirectory, Nat.le_refl _, by decide,
      rfl, fun _ _ => rfl⟩
  | deciding =>
      obtain ⟨name, hname, hpath, hfirst⟩ :=
        decidingManifest_cases tree directory
      exact ⟨directory, name, hdirectory, Nat.le_refl _, hname, hpath,
        fun hfile _ => hfirst hfile⟩

theorem holdsManifest_iff {tree : FileTree} {directory : Path} :
    HoldsManifest tree directory ↔
      tree.isFile (decidingManifest tree directory) = true := by
  simp only [HoldsManifest, decidingManifest, Manifest.fileNames]
  cases hfirst : tree.isFile (directory.joinName "tsconfig.json") <;>
    simp [hfirst]

private theorem manifestBase_congr {tree other : FileTree} {manifest : Path}
    (h : (other.readText manifest).toOption =
      (tree.readText manifest).toOption) :
    manifestBase other manifest = manifestBase tree manifest := by
  unfold manifestBase
  cases hfirst : tree.readText manifest with
  | error _ =>
      cases hsecond : other.readText manifest with
      | error _ => rfl
      | ok text => simp [hfirst, hsecond, Except.toOption] at h
  | ok text =>
      cases hsecond : other.readText manifest with
      | error _ => simp [hfirst, hsecond, Except.toOption] at h
      | ok text' =>
          obtain rfl : text' = text := by
            simpa [hfirst, hsecond, Except.toOption] using h
          rfl

theorem NearestManifest.discoverBase_changed {tree other : FileTree}
    {root directory : Path} (hroot : root.isAbsolute = true)
    (h : NearestManifest tree root directory)
    {changed : FileTree.Location → Prop}
    (hsame : FileTree.SameExcept changed tree other)
    (hlooks : ∀ path, LooksFor tree root directory path →
      ¬tree.LeadsInto changed path) (workingDirectory : Path) :
    discoverBase other none none root workingDirectory =
      discoverBase tree none none root workingDirectory := by
  obtain ⟨nearer, further, hsplit, hnearer⟩ := h.split hroot
  have hfile := fun path hpath => (hsame.file_eq (hlooks path hpath)).1
  have hdeciding : decidingManifest other directory =
      decidingManifest tree directory := by
    rw [decidingManifest, decidingManifest, hfile _ .first]
  have hholds : HoldsManifest other directory := by
    rw [holdsManifest_iff, hdeciding, hfile _ .deciding]
    exact holdsManifest_iff.1 h.holds
  have hnone : ∀ closer ∈ nearer, ¬HoldsManifest other closer := by
    rintro closer hcloser ⟨name, hname, hheld⟩
    have hmem : closer ∈ root.ancestors := by
      rw [hsplit]
      exact List.mem_append_left _ hcloser
    rw [hfile _ (.nearer hmem (hnearer closer hcloser).1 hname)] at hheld
    exact (hnearer closer hcloser).2 ⟨name, hname, hheld⟩
  have hbefore :=
    findManifest_of_split hroot hsplit
      (fun other hother => (hnearer other hother).2) h.holds
  have hafter := findManifest_of_split hroot hsplit hnone hholds
  show (findManifest other root).bind (manifestBase other) =
    (findManifest tree root).bind (manifestBase tree)
  rw [hafter, hbefore, hdeciding, Option.bind_some, Option.bind_some]
  exact manifestBase_congr (hsame.file_eq (hlooks _ .deciding)).2

/-- The manifests further up, and the second manifest beside a first one. -/
inductive Spared (tree : FileTree) (root directory : Path) :
    FileTree.Location → Prop
  | further {other : Path} {name : String} (hother : other ∈ root.ancestors)
      (hless : other.depth < directory.depth)
      (hname : name ∈ Manifest.fileNames) :
      Spared tree root directory (other.joinName name).names.reverse
  | beside (hfirst : tree.isFile (directory.joinName "tsconfig.json") = true) :
      Spared tree root directory
        (directory.joinName "jsconfig.json").names.reverse

section Spelled

variable {tree : FileTree} {root directory : Path}
    (hroot : root.isAbsolute = true) (hup : .parent ∉ root.components)
include hroot hup

theorem ancestor_spelled {above : Path} (h : above ∈ root.ancestors) :
    above.isAbsolute = true ∧ .parent ∉ above.components ∧
      above.names.length + 1 = above.depth := by
  obtain ⟨habsolute, hbeginning⟩ := Path.mem_ancestors hroot h
  have hno : .parent ∉ above.components :=
    fun hmem => hup (hbeginning.subset hmem)
  exact ⟨habsolute, hno, Path.length_names habsolute hno⟩

theorem manifest_spelled {above : Path} (h : above ∈ root.ancestors)
    {name : String} (hname : name ∈ Manifest.fileNames) :
    (above.joinName name).isAbsolute = true ∧
      .parent ∉ (above.joinName name).components ∧
      (above.joinName name).names = above.names ++ [name] := by
  obtain ⟨habsolute, hno, -⟩ := ancestor_spelled hroot hup h
  have hinner := fileNames_inner hname
  refine ⟨(Path.isAbsolute_joinName above hinner).trans habsolute, ?_,
    Path.names_joinName habsolute hinner⟩
  rw [Path.components_joinName above hinner habsolute]
  simp [hno]

private theorem names_ne_of_spared (hdirectory : directory ∈ root.ancestors)
    {path : Path} (hpath : LooksFor tree root directory path) :
    ¬Spared tree root directory path.names.reverse := by
  have hspelled {above : Path} (h : above ∈ root.ancestors) :=
    (ancestor_spelled hroot hup h).2.2
  have hmanifest {above : Path} {name : String} (h : above ∈ root.ancestors)
      (hname : name ∈ Manifest.fileNames) :=
    (manifest_spelled hroot hup h hname).2.2
  obtain ⟨above, name, habove, hdeep, hname, rfl, hfirst⟩ :=
    hpath.exists_directory hdirectory
  intro hspared
  generalize hlocation : (above.joinName name).names.reverse =
    location at hspared
  cases hspared with
  | @further other second hother hless hsecond =>
      rw [List.reverse_inj, hmanifest habove hname, hmanifest hother hsecond]
        at hlocation
      have hlength := congrArg List.length (List.append_inj' hlocation rfl).1
      have hdepth := hspelled habove
      have hother := hspelled hother
      omega
  | beside hfile =>
      rw [List.reverse_inj, hmanifest habove hname,
        hmanifest hdirectory (by decide)] at hlocation
      obtain ⟨hnames, hlast⟩ := List.append_inj' hlocation rfl
      have hdepth : above.depth = directory.depth := by
        rw [← hspelled habove, ← hspelled hdirectory, hnames]
      rw [hfirst hfile hdepth] at hlast
      simp at hlast

private theorem not_leadsInto_spared (hdirectory : directory ∈ root.ancestors)
    {path : Path} (hpath : LooksFor tree root directory path)
    (hlinks : tree.LinkFree path.names) :
    ¬tree.LeadsInto (Spared tree root directory) path := by
  rintro ⟨found, hplace, hspared⟩
  have hno := names_ne_of_spared hroot hup hdirectory hpath
  obtain ⟨above, name, habove, -, hname, rfl, -⟩ :=
    hpath.exists_directory hdirectory
  obtain ⟨habsolute, hparent, -⟩ := manifest_spelled hroot hup habove hname
  rw [FileTree.location_of_linkFree habsolute hparent hlinks hplace] at hspared
  exact hno hspared

end Spelled

/-! ## The base directory -/

theorem nearest_manifest_decides (tree : FileTree) {root : Path}
    (hroot : root.isAbsolute = true) (workingDirectory : Path) :
    ((∀ directory ∈ directoriesAbove tree root, ¬HoldsManifest tree directory) →
      discoverBase tree none none root workingDirectory = none) ∧
    ((∃ directory ∈ directoriesAbove tree root, HoldsManifest tree directory) →
      ∃ directory, NearestManifest tree root directory) ∧
    ∀ directory, NearestManifest tree root directory →
      discoverBase tree none none root workingDirectory =
        baseSetIn tree directory ∧
      (∀ changed other, FileTree.SameExcept changed tree other →
        (∀ path, LooksFor tree root directory path →
          ¬tree.LeadsInto changed path) →
        discoverBase other none none root workingDirectory =
          discoverBase tree none none root workingDirectory) ∧
      (.parent ∉ root.components →
        (∀ path, LooksFor tree root directory path → tree.LinkFree path.names) →
        ∀ changed other, FileTree.SameExcept changed tree other →
          (∀ location, changed location → Spared tree root directory location) →
          discoverBase other none none root workingDirectory =
            discoverBase tree none none root workingDirectory) := by
  refine ⟨fun hnone => ?_, exists_nearestManifest hroot,
    fun directory hnearest => ⟨?_, ?_, ?_⟩⟩
  · show (findManifest tree root).bind (manifestBase tree) = none
    rw [findManifest_eq_none hroot hnone, Option.bind_none]
  · exact hnearest.discoverBase_eq hroot workingDirectory
  · intro changed other hsame hlooks
    exact hnearest.discoverBase_changed hroot hsame hlooks workingDirectory
  · intro hup hlinks changed other hsame hspared
    have hdirectory := hnearest.mem_ancestors hroot
    refine hnearest.discoverBase_changed hroot hsame (fun path hpath => ?_)
      workingDirectory
    rintro ⟨found, hplace, hchanged⟩
    exact not_leadsInto_spared hroot hup hdirectory hpath (hlinks path hpath)
      ⟨found, hplace, hspared _ hchanged⟩

def workshopTree (upper : String) : FileTree :=
  ⟨[("tsconfig.json", .file (some upper)),
    ("app", .directory
      [("tsconfig.json", .file (some
          "\x7b\"compilerOptions\": \x7b\"baseUrl\": \"./src\"\x7d\x7d")),
        ("src", .directory [("a.ts", .file (some ""))])])]⟩

theorem workshop_keeps_base :
    NearestManifest (workshopTree "[") ⟨"/app/src/a.ts"⟩ ⟨"/app"⟩ ∧
      discoverBase (workshopTree "[") none none ⟨"/app/src/a.ts"⟩ ⟨"/"⟩ =
        some ⟨"/app/src"⟩ ∧
      discoverBase (workshopTree "\x7b\x7d") none none ⟨"/app/src/a.ts"⟩ ⟨"/"⟩ =
        some ⟨"/app/src"⟩ := by
  have hroot : Path.isAbsolute ⟨"/app/src/a.ts"⟩ = true := by decide
  have hnearest : NearestManifest (workshopTree "[") ⟨"/app/src/a.ts"⟩
    ⟨"/app"⟩ := by decide +kernel
  have hlinks : ∀ above ∈ Path.ancestors ⟨"/app/src/a.ts"⟩,
      ∀ name ∈ Manifest.fileNames,
      (workshopTree "[").LinkFree (above.joinName name).names := by
        decide +kernel
  have hspared : Spared (workshopTree "[") ⟨"/app/src/a.ts"⟩ ⟨"/app"⟩
      (Path.joinName ⟨"/"⟩ "tsconfig.json").names.reverse :=
    .further (by decide +kernel) (by decide +kernel) (by decide)
  obtain ⟨hbase, -, hkeeps⟩ :=
    (nearest_manifest_decides (workshopTree "[") hroot ⟨"/"⟩).2.2 _ hnearest
  have hvalue : baseSetIn (workshopTree "[") ⟨"/app"⟩ = some ⟨"/app/src"⟩ := by
    decide +kernel
  have hchanged := hkeeps (by decide +kernel)
    (fun path hpath => by
      obtain ⟨above, name, habove, -, hname, rfl, -⟩ :=
        hpath.exists_directory (hnearest.mem_ancestors hroot)
      exact hlinks above habove name hname)
    _ (workshopTree "\x7b\x7d") (FileTree.sameExcept_first "tsconfig.json"
      (some "[") (some "\x7b\x7d") _)
    (fun location hlocation => hlocation ▸ hspared)
  exact ⟨hnearest, hbase.trans hvalue, hchanged.trans (hbase.trans hvalue)⟩

def climbTree : FileTree :=
  ⟨[("p", .directory
      [("tsconfig.json", .file (some
          "\x7b\"compilerOptions\": \x7b\"baseUrl\": \"src\"\x7d\x7d")),
        ("x", .directory [])]),
    ("q", .directory [])]⟩

def linkedTree : FileTree :=
  ⟨[("p", .directory
      [("tsconfig.json", .file (some
          "\x7b\"compilerOptions\": \x7b\"baseUrl\": \"src\"\x7d\x7d")),
        ("app", .directory [("tsconfig.json", .link ⟨"../tsconfig.json"⟩)])])]⟩

def baseAfterWriting (tree : FileTree) (manifest : Path) (text : String)
    (root : Path) : Option Path :=
  match tree.write manifest (some text) with
  | .ok other => discoverBase other none none root ⟨"/"⟩
  | .error _ => none

theorem higher_manifest_seen_from_below :
    NearestManifest climbTree ⟨"/p/x/../../q"⟩ ⟨"/p/x/.."⟩ ∧
      ⟨"/"⟩ ∈ Path.ancestors ⟨"/p/x/.."⟩ ∧
      discoverBase climbTree none none ⟨"/p/x/../../q"⟩ ⟨"/"⟩ =
        some ⟨"/p/src"⟩ ∧
      baseAfterWriting climbTree ⟨"/tsconfig.json"⟩
        "\x7b\"compilerOptions\": \x7b\"baseUrl\": \"lib\"\x7d\x7d"
        ⟨"/p/x/../../q"⟩ = some ⟨"/lib"⟩ ∧
    NearestManifest linkedTree ⟨"/p/app"⟩ ⟨"/p/app"⟩ ∧
      ⟨"/p"⟩ ∈ Path.ancestors ⟨"/p/app"⟩ ∧
      discoverBase linkedTree none none ⟨"/p/app"⟩ ⟨"/"⟩ = some ⟨"/p/app/src"⟩ ∧
      baseAfterWriting linkedTree ⟨"/p/tsconfig.json"⟩
        "\x7b\"compilerOptions\": \x7b\"baseUrl\": \"lib\"\x7d\x7d"
        ⟨"/p/app"⟩ = some ⟨"/p/app/lib"⟩ := by
  decide +kernel

end ImportAtlas
