import ImportAtlas.Proofs.NormalPath
import ImportAtlas.Resolution.Resolver

/-!
# The identity of resolved files

A specifier is looked up at its candidate paths.  Each of the three ways to
find a file there builds a path of its own, and all of them end in the same
form: a normal path with an extension that the resolver knows, which is found
again when it is looked up itself.
-/

namespace ImportAtlas

theorem FileTree.isAbsolute_of_find {tree : FileTree} {path : Path}
    {entry : Entry} (h : tree.find path = .ok entry) :
    path.isAbsolute = true := by
  by_contra hrelative
  rw [find, place, if_neg hrelative] at h
  contradiction

theorem FileTree.isAbsolute_of_isFile {tree : FileTree} {path : Path}
    (h : tree.isFile path = true) :
    path.isAbsolute = true := by
  rw [isFile] at h
  split at h
  · rename_i hfound
    exact isAbsolute_of_find hfound
  · contradiction

namespace Resolver

variable {tree : FileTree} {resolver : Resolver} {candidate found : Path}

/-! ## Finding a file -/

theorem probeNormal_cases
    (h : probeNormal tree resolver candidate = some found) :
    tree.isFile found = true ∧
      (found = candidate ∧ resolver.hasKnownExtension candidate = true ∨
        ∃ extension ∈ resolver.extensions,
          found = withExtension candidate extension ∨
          found = candidate.joinName (indexName extension)) := by
  unfold probeNormal at h
  split at h
  · rename_i hcandidate
    rw [Bool.and_eq_true] at hcandidate
    obtain rfl := Option.some.inj h
    exact ⟨hcandidate.2, .inl ⟨rfl, hcandidate.1⟩⟩
  · split at h
    · rename_i hfound
      obtain rfl := Option.some.inj h
      obtain ⟨extension, hextension, rfl⟩ :=
        List.mem_map.1 (List.mem_of_find?_eq_some hfound)
      exact ⟨List.find?_some hfound, .inr ⟨extension, hextension, .inl rfl⟩⟩
    · split at h
      · obtain ⟨extension, hextension, rfl⟩ :=
          List.mem_map.1 (List.mem_of_find?_eq_some h)
        exact ⟨List.find?_some h, .inr ⟨extension, hextension, .inr rfl⟩⟩
      · contradiction

private theorem probe_of_known (hnormal : found.normalize = found)
    (hknown : resolver.hasKnownExtension found = true)
    (hfile : tree.isFile found = true) :
    probe tree resolver found = some found := by
  rw [probe, hnormal, probeNormal, if_pos (by simp [hknown, hfile])]

theorem sameLetters_refl (text : String) : sameLetters text text = true := by
  simp [sameLetters]

theorem hasKnownExtension_iff {path : Path} :
    resolver.hasKnownExtension path = true ↔
      ∃ extension, path.extension? = some extension ∧
        ∃ known ∈ resolver.extensions, sameLetters known extension = true := by
  unfold hasKnownExtension
  cases path.extension? <;> simp

theorem known_of_name {stack : List Path.Component} {stem extension : String}
    (h : Path.Folded stack) (hplain : PlainExtension extension)
    (hextension : extension ∈ resolver.extensions) (hstem : stem ≠ "")
    (hslash : '/' ∉ stem.toList)
    (hfound : found =
      Path.ofComponents (.normal (stem ++ "." ++ extension) :: stack).reverse) :
    found.normalize = found ∧ resolver.hasKnownExtension found = true := by
  have hfolded := Path.Folded.name (hplain.inner hslash) h
  rw [hfound]
  refine ⟨hfolded.normalize_eq, hasKnownExtension_iff.2 ⟨extension, ?_,
    extension, hextension, sameLetters_refl _⟩⟩
  rw [Path.extension?, Path.fileName?_concat hfolded, Option.bind_some,
    Path.splitName_append hstem hplain.noDot]

theorem withExtension_eq {component : Path.Component}
    (hcomponent : component.Inner) (below : List Path.Component)
    (extension : String) :
    withExtension (Path.ofComponents (component :: below).reverse) extension =
      Path.ofComponents (.normal (component.segment ++ "." ++ extension) ::
        below).reverse := by
  rw [withExtension, Path.mk.injEq, List.reverse_cons, List.reverse_cons,
    Path.text_ofComponents_concat _ hcomponent.ne_root,
    Path.text_ofComponents_concat _ (by simp)]
  simp [Path.Component.segment, String.append_assoc]

theorem indexName_eq (extension : String) :
    indexName extension = "index" ++ "." ++ extension := by
  have hindex : "index." = "index" ++ "." := by decide
  rw [indexName, hindex]

private theorem probe_known
    (hextensions : ∀ extension ∈ resolver.extensions, PlainExtension extension)
    (hroot : candidate.normalize ≠ ⟨"/"⟩)
    (h : probe tree resolver candidate = some found) :
    tree.isFile found = true ∧ found.normalize = found ∧
      resolver.hasKnownExtension found = true := by
  have hfolded := Path.folded_stack candidate
  obtain ⟨hfile, ⟨rfl, hknown⟩ | ⟨extension, hextension, hfound⟩⟩ :=
    probeNormal_cases h
  · exact ⟨hfile, hfolded.normalize_eq, hknown⟩
  · refine ⟨hfile, ?_⟩
    have hplain := hextensions extension hextension
    rcases hfound with rfl | hfound
    · -- An extension after the empty path would give a relative path, after the
      -- root a name without a stem.
      have hempty : candidate.stack ≠ [] := by
        intro hnil
        have habsolute := FileTree.isAbsolute_of_isFile hfile
        rw [Path.normalize_eq, hnil] at habsolute
        simp [withExtension, Path.ofComponents, Path.ofSegments,
          Path.isAbsolute] at habsolute
      have hroot : candidate.stack ≠ [.root] := by
        intro hstack
        rw [Path.normalize_eq, hstack] at hroot
        exact hroot rfl
      obtain ⟨component, below, hstack, hcomponent, hbelow⟩ :=
        hfolded.eq_cons hempty hroot
      refine known_of_name hbelow hplain hextension hcomponent.segment_ne_empty
        hcomponent.noSlash ?_
      rw [Path.normalize_eq, hstack, withExtension_eq hcomponent]
    · refine known_of_name hfolded hplain hextension (by decide : "index" ≠ "")
        (by decide) ?_
      have hindex := hplain.inner (by decide : '/' ∉ "index".toList)
      rw [hfound, Path.normalize_eq, indexName_eq, hfolded.joinName_eq hindex]

/-! ## Resolving a specifier -/

def candidates (resolver : Resolver) (specifier : String) (fromFile : Path) :
    List Path :=
  let directory := fromFile.parent?.getD ⟨""⟩
  if isRelativeSpecifier specifier then [directory.join ⟨specifier⟩]
  else if Path.isAbsolute ⟨specifier⟩ then [⟨specifier⟩]
  else if !specifier.toList.contains '/' then []
  else (resolver.baseDirectory.toList ++ [directory]).map fun start =>
    start.join ⟨specifier⟩

/-- The first candidate that leads to a file decides; without one a specifier
may still name a package. -/
theorem resolve_eq (tree : FileTree) (resolver : Resolver) (specifier : String)
    (fromFile : Path) :
    resolver.resolve tree specifier fromFile =
      match (resolver.candidates specifier fromFile).findSome?
        (probe tree resolver) with
      | some found => some (.file found)
      | none =>
        if isRelativeSpecifier specifier || Path.isAbsolute ⟨specifier⟩ then
          none else some (.package specifier) := by
  have hmap (found : Option Path) : found.map Target.file =
      match found with
      | some path => some (.file path)
      | none => none := by
    cases found <;> rfl
  unfold resolve candidates
  by_cases hrelative : isRelativeSpecifier specifier = true
  · simp only [hrelative, if_true, List.findSome?_singleton, Bool.true_or, hmap]
  · rw [Bool.not_eq_true] at hrelative
    by_cases habsolute : Path.isAbsolute ⟨specifier⟩ = true
    · simp only [hrelative, habsolute, Bool.false_eq_true, if_false, if_true,
        List.findSome?_singleton, Bool.or_true, hmap]
    · rw [Bool.not_eq_true] at habsolute
      simp only [hrelative, habsolute, Bool.or_self,
        Bool.false_eq_true, if_false]
      by_cases hbare : specifier.toList.contains '/' = true
      · simp only [hbare, Bool.not_true, Bool.false_eq_true, if_false,
          List.map_append, List.map_cons, List.map_nil, List.findSome?_append,
          List.findSome?_singleton]
        generalize probe tree resolver
          ((fromFile.parent?.getD ⟨""⟩).join ⟨specifier⟩) = beside
        cases resolver.baseDirectory with
        | none =>
            cases beside <;>
              simp only [Option.bind_none, Option.toList_none, List.map_nil,
                List.findSome?_nil, Option.none_or]
        | some start =>
            simp only [Option.bind_some, Option.toList_some, List.map_cons,
              List.map_nil, List.findSome?_singleton]
            generalize probe tree resolver (start.join ⟨specifier⟩) = below
            cases below <;> cases beside <;> rfl
      · rw [Bool.not_eq_true] at hbare
        simp only [hbare, Bool.not_false, if_true, List.findSome?_nil]

/-- A path by which a file can be known: looking it up again leads to it. -/
structure Canonical (tree : FileTree) (resolver : Resolver) (path : Path) :
    Prop where
  absolute : path.isAbsolute = true
  normal : path.normalize = path
  isFile : tree.isFile path = true
  extension : ∃ extension, path.extension? = some extension ∧
    ∃ known ∈ resolver.extensions, sameLetters known extension = true
  probe : probe tree resolver path = some path

private theorem canonical_of_probe
    (hextensions : ∀ extension ∈ resolver.extensions, PlainExtension extension)
    (hroot : candidate.normalize ≠ ⟨"/"⟩)
    (h : probe tree resolver candidate = some found) :
    resolver.Canonical tree found := by
  obtain ⟨hfile, hnormal, hknown⟩ := probe_known hextensions hroot h
  exact ⟨FileTree.isAbsolute_of_isFile hfile, hnormal, hfile,
    hasKnownExtension_iff.1 hknown, probe_of_known hnormal hknown hfile⟩

private theorem resolve_cases (tree : FileTree) (resolver : Resolver)
    (specifier : String) (fromFile : Path) :
    (∃ candidate ∈ resolver.candidates specifier fromFile,
      ∃ found, probe tree resolver candidate = some found ∧
        resolver.resolve tree specifier fromFile = some (.file found)) ∨
      (∀ candidate ∈ resolver.candidates specifier fromFile,
        probe tree resolver candidate = none) ∧
        ((isRelativeSpecifier specifier = true ∨
          Path.isAbsolute ⟨specifier⟩ = true) ∧
            resolver.resolve tree specifier fromFile = none ∨
          (isRelativeSpecifier specifier = false ∧
            Path.isAbsolute ⟨specifier⟩ = false) ∧
            resolver.resolve tree specifier fromFile =
              some (.package specifier)) := by
  rw [resolve_eq]
  cases hprobe : (resolver.candidates specifier fromFile).findSome?
    (probe tree resolver) with
  | some found =>
      obtain ⟨candidate, hcandidate, hfound⟩ :=
        List.exists_of_findSome?_eq_some hprobe
      exact .inl ⟨candidate, hcandidate, found, hfound, rfl⟩
  | none =>
      refine .inr ⟨List.findSome?_eq_none_iff.1 hprobe, ?_⟩
      by_cases hpath : (isRelativeSpecifier specifier ||
        Path.isAbsolute ⟨specifier⟩) = true
      · exact .inl ⟨by simpa using hpath, if_pos hpath⟩
      · exact .inr ⟨by simpa using hpath, if_neg hpath⟩

def Admits (tree : FileTree) (resolver : Resolver) (specifier : String)
    (fromFile : Path) : Option Target → Prop
  | some (.file path) => resolver.Canonical tree path
  | some (.package name) => name = specifier ∧
      isRelativeSpecifier name = false ∧ Path.isAbsolute ⟨name⟩ = false ∧
      ∀ candidate ∈ resolver.candidates specifier fromFile,
        probe tree resolver candidate = none
  | none => (isRelativeSpecifier specifier = true ∨
      Path.isAbsolute ⟨specifier⟩ = true) ∧
      ∀ candidate ∈ resolver.candidates specifier fromFile,
        probe tree resolver candidate = none

/-- A specifier leads to a canonical path, to a package by its own name, or
nowhere, and the text tells which. -/
theorem resolve_is_canonical (tree : FileTree) (resolver : Resolver)
    (specifier : String) (fromFile : Path)
    (hextensions : ∀ extension ∈ resolver.extensions, PlainExtension extension)
    (hroot : ∀ candidate ∈ resolver.candidates specifier fromFile,
      candidate.normalize ≠ ⟨"/"⟩) :
    resolver.Admits tree specifier fromFile
      (resolver.resolve tree specifier fromFile) ∧
      ∀ target, resolver.resolve tree specifier fromFile = some target →
        (target.text.toList.head? = some '/' ↔
          ∃ path, target = .file path) := by
  rcases resolve_cases tree resolver specifier fromFile with
    ⟨candidate, hcandidate, found, hprobe, hresolve⟩
      | ⟨hnone, ⟨hpath, hresolve⟩ | ⟨hname, hresolve⟩⟩
  · have hcanonical :=
      canonical_of_probe hextensions (hroot candidate hcandidate) hprobe
    rw [hresolve]
    refine ⟨hcanonical, ?_⟩
    rintro _ ⟨rfl⟩
    exact iff_of_true
      (by simpa [Target.text, Path.isAbsolute] using hcanonical.absolute)
      ⟨found, rfl⟩
  · rw [hresolve]
    exact ⟨⟨hpath, hnone⟩, by simp⟩
  · rw [hresolve]
    refine ⟨⟨rfl, hname.1, hname.2, hnone⟩, ?_⟩
    rintro _ ⟨rfl⟩
    refine iff_of_false ?_ (by simp)
    simpa [Target.text, Path.isAbsolute] using hname.2

def libraryTree : FileTree :=
  ⟨[("lib", .directory [("index.tsx", .file (some ""))]),
    ("app", .directory [("main.ts", .file (some ""))])]⟩

theorem library_index_is_canonical :
    let resolver := Resolver.new (some ⟨"/app"⟩)
    resolver.resolve libraryTree "../lib/." ⟨"/app/main.ts"⟩ =
        some (.file ⟨"/lib/index.tsx"⟩) ∧
      resolver.Canonical libraryTree ⟨"/lib/index.tsx"⟩ := by
  intro resolver
  have hextensions : ∀ extension ∈ resolver.extensions,
      PlainExtension extension :=
    fun extension hextension => scriptExtensions_plain hextension
  have hroot : ∀ candidate ∈ resolver.candidates "../lib/." ⟨"/app/main.ts"⟩,
      candidate.normalize ≠ ⟨"/"⟩ := by
    decide +kernel
  have hresolve : resolver.resolve libraryTree "../lib/." ⟨"/app/main.ts"⟩ =
      some (.file ⟨"/lib/index.tsx"⟩) := by
    decide +kernel
  have hcanonical :=
    (resolve_is_canonical libraryTree resolver "../lib/." ⟨"/app/main.ts"⟩
      hextensions hroot).1
  rw [hresolve] at hcanonical
  exact ⟨hresolve, hcanonical⟩

end Resolver

end ImportAtlas
