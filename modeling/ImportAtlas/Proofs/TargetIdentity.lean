import ImportAtlas.Proofs.PlainPath
import ImportAtlas.Proofs.ResolvedIdentity
import ImportAtlas.Proofs.SiblingFallback
import Mathlib.Data.List.Forall2

/-!
# The identity of a target

A search looks at its target in three places: for the imports that lead to it,
for the index files beside it, and as the start of the walk through barrels.
Imports and barrels go by the key of the target, and of a plain target the key
tells the directory as well.
-/

namespace ImportAtlas

variable {tree : FileTree} {corpus : Corpus} {first second : Path}

/-! ## Targets that are plain -/

namespace Resolver

variable {resolver : Resolver}

def NoSeparators (resolver : Resolver) : Prop :=
  ∀ extension ∈ resolver.extensions, '/' ∉ extension.toList ∧
    '\\' ∉ extension.toList

theorem inner_extension {component : Path.Component}
    (hcomponent : component.Inner) {extension : String}
    (hslash : '/' ∉ extension.toList) :
    (Path.Component.normal (component.segment ++ "." ++ extension)).Inner := by
  obtain ⟨c, letters, hletters⟩ :=
    List.exists_cons_of_ne_nil hcomponent.segment_toList_ne_nil
  have hdot : ¬(c = '.' ∧ letters = []) := by
    rintro ⟨rfl, rfl⟩
    exact hcomponent.segment_ne_dot (String.toList_inj.1 hletters)
  have htext : (component.segment ++ "." ++ extension).toList =
      c :: (letters ++ '.' :: extension.toList) := by
    simp [hletters]
  have hnoSlash := hcomponent.noSlash
  rw [hletters] at hnoSlash
  refine Path.Component.inner_normal ?_ ?_ ?_ ?_
  · simp
  · rw [ne_eq, ← String.toList_inj, htext]
    simp
  · rw [ne_eq, ← String.toList_inj, htext]
    intro hdots
    obtain ⟨rfl, hrest⟩ := List.cons.inj hdots
    cases letters <;> simp_all
  · rw [htext]
    simp_all

private theorem normal_hidden {extension : String}
    (hslash : '/' ∉ extension.toList)
    (hfile : tree.isFile ⟨"/" ++ "." ++ extension⟩ = true) :
    Path.normalize ⟨"/" ++ "." ++ extension⟩ = ⟨"/" ++ "." ++ extension⟩ := by
  have hempty : extension ≠ "" := by
    rintro rfl
    have hroot : tree.isFile ⟨"/."⟩ = false := rfl
    simp [hroot] at hfile
  have hdot : extension ≠ "." := by
    rintro rfl
    have hroot : tree.isFile ⟨"/.."⟩ = false := rfl
    simp [hroot] at hfile
  have hname : (Path.Component.normal ("." ++ extension)).Inner := by
    refine Path.Component.inner_normal (by simp) ?_ ?_ (by simp [hslash])
    · rw [ne_eq, ← String.toList_inj]
      simpa using hempty
    · rw [ne_eq, ← String.toList_inj]
      simpa [← String.toList_inj] using hdot
  have hfolded := Path.Folded.name hname .root
  have htext : (⟨"/" ++ "." ++ extension⟩ : Path) =
      Path.ofComponents (.normal ("." ++ extension) :: [.root]).reverse := by
    rw [List.reverse_cons, Path.mk.injEq,
      Path.text_ofComponents_concat _ hname.ne_root, String.append_assoc]
    rfl
  rw [htext, hfolded.normalize_eq]

private theorem plain_withExtension {candidate : Path} (h : candidate.Plain)
    {extension : String} (hslash : '/' ∉ extension.toList)
    (hbackslash : '\\' ∉ extension.toList)
    (hfile : tree.isFile (withExtension candidate extension) = true) :
    (withExtension candidate extension).Plain := by
  refine ⟨?_, by simp [withExtension, h.noBackslash, hbackslash]⟩
  have hfolded := Path.folded_stack candidate
  have hcandidate : Path.ofComponents candidate.stack.reverse = candidate :=
    h.normal
  rcases hfolded.last_cases
    with hempty | hroot | ⟨component, below, hstack, hcomponent, hbelow⟩
  · have habsolute := FileTree.isAbsolute_of_isFile hfile
    rw [← hcandidate, hempty] at habsolute
    simp [withExtension, Path.ofComponents, Path.ofSegments, Path.isAbsolute]
      at habsolute
  · have hslashes : Path.ofComponents [.root].reverse = ⟨"/"⟩ := by decide
    rw [hroot, hslashes] at hcandidate
    subst hcandidate
    exact normal_hidden hslash hfile
  · rw [← hcandidate, hstack, withExtension_eq hcomponent]
    exact (Path.Folded.name (inner_extension hcomponent hslash)
      hbelow).normalize_eq

theorem noBackslash_join {path next : Path} (hpath : '\\' ∉ path.text.toList)
    (hnext : '\\' ∉ next.text.toList) :
    '\\' ∉ (path.join next).text.toList := by
  unfold Path.join
  split
  · exact hnext
  · split <;> simp [hpath, hnext]

private theorem plain_index {candidate : Path} (h : candidate.Plain)
    {extension : String} (hslash : '/' ∉ extension.toList)
    (hbackslash : '\\' ∉ extension.toList) :
    (candidate.joinName (indexName extension)).Plain := by
  refine ⟨?_, noBackslash_join h.noBackslash (by simp [indexName, hbackslash])⟩
  have hindex : (Path.Component.normal "index").Inner :=
    Path.Component.inner_normal (by decide) (by decide) (by decide) (by decide)
  have hname := inner_extension hindex hslash
  have hfolded := Path.folded_stack candidate
  have hcandidate : Path.ofComponents candidate.stack.reverse = candidate :=
    h.normal
  rw [Path.Component.segment, ← indexName_eq] at hname
  rw [← hcandidate, hfolded.joinName_eq hname]
  exact (Path.Folded.name hname hfolded).normalize_eq

theorem resolveTarget_plain (hextensions : resolver.NoSeparators)
    {target directory : Path} (htarget : '\\' ∉ target.text.toList)
    (hdirectory : '\\' ∉ directory.text.toList) :
    (resolver.resolveTarget tree target directory).Plain := by
  have hplain := Path.plain_normalize (noBackslash_join hdirectory htarget)
  unfold resolveTarget
  extract_lets normal
  split
  · exact hplain
  · cases hprobe : probe tree resolver normal with
    | none =>
        rw [Option.getD_none]
        exact hplain
    | some found =>
        rw [Option.getD_some]
        rw [probe, hplain.normal] at hprobe
        obtain ⟨hfile, ⟨rfl, -⟩ | ⟨extension, hextension, rfl | rfl⟩⟩ :=
          probeNormal_cases hprobe
        · exact hplain
        · exact plain_withExtension hplain (hextensions extension hextension).1
            (hextensions extension hextension).2 hfile
        · exact plain_index hplain (hextensions extension hextension).1
            (hextensions extension hextension).2

private theorem siblingIndexes_congr (hparent : first.parent? = second.parent?)
    (hkey : first.key = second.key) :
    resolver.siblingIndexes tree first =
      resolver.siblingIndexes tree second := by
  simp only [siblingIndexes, hparent, Path.sameFile, hkey]

end Resolver

/-! ## Two walks in step -/

/-- Pending files that differ at most in how the module they were found by is
written. -/
structure Pending.Alike (first second : Pending) : Prop where
  file : first.file = second.file
  via : first.via.key = second.via.key
  carried : first.carried = second.carried

private theorem Pending.alike_refl (pending : Pending) :
    pending.Alike pending :=
  ⟨rfl, rfl, rfl⟩

private theorem Pending.Alike.carrier?_eq {first second : Pending}
    (h : first.Alike second) (tree : FileTree) (corpus : Corpus) :
    first.carrier? tree corpus = second.carrier? tree corpus := by
  unfold Pending.carrier?
  simp only [h.file, h.carried, forwardedNames_congr h.via]

namespace Trace

structure Alike (first second : Trace) : Prop where
  visited : first.visited = second.visited
  pending : List.Forall₂ Pending.Alike first.pending second.pending
  found : first.found = second.found

theorem Alike.step {first second : Trace} (h : first.Alike second)
    (tree : FileTree) (corpus : Corpus) (styles : StyleFilter) :
    (first.step tree corpus styles).Alike (second.step tree corpus styles) := by
  obtain ⟨visited, pending, found⟩ := first
  obtain ⟨_, pending', _⟩ := second
  obtain ⟨rfl, hpending, rfl⟩ := h
  dsimp only at hpending
  cases hpending with
  | nil =>
      rw [step_of_nil tree corpus styles rfl]
      exact ⟨rfl, .nil, rfl⟩
  | @cons next next' rest rest' hnext hrest =>
      have hcarrier := hnext.carrier?_eq tree corpus
      by_cases hskip : visited.contains next.file = true ∨
        next.carrier? tree corpus = none
      · have hskip' : visited.contains next'.file = true ∨
            next'.carrier? tree corpus = none := by
          rwa [← hnext.file, ← hcarrier]
        rw [step_skip tree corpus styles rfl hskip,
          step_skip tree corpus styles rfl hskip']
        exact ⟨rfl, hrest, rfl⟩
      · rw [not_or, Bool.not_eq_true] at hskip
        obtain ⟨carrier, hsome⟩ := Option.ne_none_iff_exists'.1 hskip.2
        rw [step_follow tree corpus styles rfl hskip.1 hsome,
          step_follow tree corpus styles rfl (hnext.file ▸ hskip.1)
            (hcarrier ▸ hsome)]
        refine ⟨by rw [hnext.file], ?_, rfl⟩
        exact List.rel_append hrest (List.forall₂_same.2 fun pending _ =>
          pending.alike_refl)

theorem Alike.run {first second : Trace} (h : first.Alike second)
    (tree : FileTree) (corpus : Corpus) (styles : StyleFilter) (steps : Nat) :
    (first.run tree corpus styles steps).Alike
      (second.run tree corpus styles steps) := by
  rw [run_eq_iterate, run_eq_iterate]
  induction steps generalizing first second with
  | zero => exact h
  | succ steps ih =>
      rw [Function.iterate_succ_apply, Function.iterate_succ_apply]
      exact ih (h.step tree corpus styles)

end Trace

private theorem traceBarrels_congr (hkey : first.key = second.key)
    (styles : StyleFilter) (direct : List Importer) :
    traceBarrels tree corpus styles first direct =
      traceBarrels tree corpus styles second direct := by
  have hstart : (Trace.start first direct).Alike
      (Trace.start second direct) := by
    refine ⟨rfl, ?_, rfl⟩
    rw [Trace.start, Trace.start, List.forall₂_map_left_iff,
      List.forall₂_map_right_iff, List.forall₂_same]
    exact fun importer _ => ⟨rfl, hkey, rfl⟩
  rw [traceBarrels_eq_run, traceBarrels_eq_run]
  exact (hstart.run tree corpus styles _).found

/-! ## Two searches -/

private theorem siblingBarrels_congr (hparent : first.parent? = second.parent?)
    (hkey : first.key = second.key) :
    Query.siblingBarrels tree corpus first =
      Query.siblingBarrels tree corpus second := by
  unfold Query.siblingBarrels
  simp only [Resolver.siblingIndexes_congr hparent hkey,
    forwardedNames_congr hkey]

private theorem directImporters_congr (hparent : first.parent? = second.parent?)
    (hkey : first.key = second.key) (styles : StyleFilter)
    (name : Option String) :
    directImporters corpus styles (fileQuery tree corpus name first) =
      directImporters corpus styles (fileQuery tree corpus name second) := by
  have hmatches (module : FileModule) :
      matchingImports styles (fileQuery tree corpus name first) module =
        matchingImports styles (fileQuery tree corpus name second) module := by
    simp only [matchingImports, fileQuery, Query.accepts_of_target,
      siblingBarrels_congr hparent hkey, Query.targetMatches,
      Target.isFile_congr hkey]
  simp only [directImporters, hmatches]

private theorem searchResults_congr (hparent : first.parent? = second.parent?)
    (hkey : first.key = second.key) (styles : StyleFilter)
    (name : Option String) :
    searchResults tree corpus styles (fileQuery tree corpus name first) =
      searchResults tree corpus styles (fileQuery tree corpus name second) := by
  unfold searchResults
  rw [directImporters_congr hparent hkey]
  exact traceBarrels_congr hkey styles _

/-- Whatever two paths without backslashes lead to one file, a search for
either gives the same results. -/
theorem search_depends_on_target_identity (tree : FileTree) (corpus : Corpus)
    (name : Option String) (options : ScanOptions) {first second : Path}
    (hextensions : corpus.resolver.NoSeparators)
    (hdirectory : '\\' ∉ options.workingDirectory.text.toList)
    (hfirst : '\\' ∉ first.text.toList) (hsecond : '\\' ∉ second.text.toList)
    (hsame :
      (corpus.resolver.resolveTarget tree first
          options.workingDirectory).sameFile
        (corpus.resolver.resolveTarget tree second
          options.workingDirectory) = true) :
    (searchCorpus tree corpus name (options.withModulePath first)).results =
      (searchCorpus tree corpus name
        (options.withModulePath second)).results := by
  have hkey := Path.sameFile_iff.1 hsame
  have hparent := (Resolver.resolveTarget_plain hextensions hfirst
    hdirectory).parent?_eq
    (Resolver.resolveTarget_plain hextensions hsecond hdirectory) hkey
  have hbuild (path : Path) :
      Query.build tree corpus name (options.withModulePath path) =
      fileQuery tree corpus name
        (corpus.resolver.resolveTarget tree path options.workingDirectory) :=
    Query.build_of_modulePath name rfl
  simp only [searchCorpus, hbuild]
  exact searchResults_congr hparent hkey options.styles name

theorem sibling_target_by_two_paths :
    Path.sameFile
        (siblingCorpus.resolver.resolveTarget siblingTree ⟨"lib/t"⟩ ⟨"/"⟩)
        (siblingCorpus.resolver.resolveTarget siblingTree
          ⟨"./app/../lib/t.js"⟩ ⟨"/"⟩) = true ∧
      (searchCorpus siblingTree siblingCorpus none
        (siblingSearch.withModulePath ⟨"lib/t"⟩)).results =
        (searchCorpus siblingTree siblingCorpus none
          (siblingSearch.withModulePath ⟨"./app/../lib/t.js"⟩)).results := by
  obtain ⟨hextensions,
        hsame⟩ : (∀ extension ∈ siblingCorpus.resolver.extensions,
        '/' ∉ extension.toList ∧ '\\' ∉ extension.toList) ∧
      Path.sameFile (siblingCorpus.resolver.resolveTarget siblingTree
        ⟨"lib/t"⟩ ⟨"/"⟩) (siblingCorpus.resolver.resolveTarget siblingTree
        ⟨"./app/../lib/t.js"⟩ ⟨"/"⟩) = true := by
    decide +kernel
  exact ⟨hsame, search_depends_on_target_identity siblingTree siblingCorpus none
    siblingSearch hextensions (by decide)
    (by decide) (by decide) hsame⟩

/-! ## Separators in other places -/

def dottedTree : FileTree :=
  ⟨[("a", .directory
      [("b.c", .directory
          [("index.ts", .file (some "export * from './t';\nimport '.';")),
            ("t.ts", .file (some ""))]),
        ("b.c\\t.ts", .file (some ""))])]⟩

def dottedCorpus (extensions : List String) : Corpus :=
  ((Corpus.new ⟨"/"⟩ ((Resolver.new none).withExtensions extensions)).loadAll
    dottedTree [⟨"/a/b.c/index.ts"⟩] defaultBatchSize).1

def reportedLines (extensions : List String) (directory path : Path) :
    List (List Nat) :=
  (searchCorpus dottedTree (dottedCorpus extensions) none
    { workingDirectory := directory, modulePath := some path }).results.map
      fun importer => importer.imports.map ImportRecord.line

/-- Two paths lead to one file, and only one of the searches for it finds the
index file beside it. -/
def SearchesDiffer (extensions : List String) (directory first second : Path) :
    Prop :=
  ((dottedCorpus extensions).resolver.resolveTarget dottedTree
      first directory).sameFile
      ((dottedCorpus extensions).resolver.resolveTarget dottedTree second
        directory) = true ∧
    reportedLines extensions directory first = [[1]] ∧
      reportedLines extensions directory second = [[1, 2]]

instance (extensions : List String) (directory first second : Path) :
    Decidable (SearchesDiffer extensions directory first second) :=
  inferInstanceAs (Decidable (_ ∧ _ ∧ _))

theorem separators_elsewhere_change_results :
    SearchesDiffer ["ts"] ⟨"/a\\b.c"⟩ ⟨"t.ts"⟩ ⟨"../a/b.c/t.ts"⟩ ∧
      SearchesDiffer ["ts", "c\\t.ts"] ⟨"/a"⟩ ⟨"b"⟩ ⟨"b.c/t.ts"⟩ ∧
      SearchesDiffer ["ts", "c/../b.c/t.ts"] ⟨"/a"⟩ ⟨"b"⟩ ⟨"b.c/t.ts"⟩ := by
  decide +kernel

end ImportAtlas
