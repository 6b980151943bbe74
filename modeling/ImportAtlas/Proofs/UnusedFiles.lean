import ImportAtlas.Proofs.IndexChain
import Mathlib.Data.List.Pairwise

/-!
# Unused files are the complement of the used ones

A file is used when another module really imports it, or when an index file
that is itself really imported passes it on.  The files that are reported as
unused are all the others, and each is reported with the first index file that
passes it on, if there is one.
-/

namespace ImportAtlas

namespace Corpus

/--
Whether some other module really imports a file.  An import by which an index
file only passes something on does not count.
-/
def UsesFile (corpus : Corpus) (file : Path) : Prop :=
  ∃ module ∈ corpus.modules, module.path.sameFile file = false ∧
    ∃ record ∈ module.imports, record.ResolvesTo file ∧
      ¬(isIndexFile module.path = true ∧ module.forwards record = true)

/-- Whether an index file that is really imported passes a file on. -/
def UsesThroughIndex (corpus : Corpus) (file : Path) : Prop :=
  ∃ index ∈ corpus.modules, isIndexFile index.path = true ∧
    corpus.UsesFile index.path ∧
    IndexChain corpus index file

def PassesOn (corpus : Corpus) (index : FileModule) (file : Path) : Prop :=
  index ∈ corpus.modules ∧ isIndexFile index.path = true ∧
    index.path.sameFile file = false ∧
    IndexChain corpus index file

def Explains (corpus : Corpus) (file : Path) : UnusedReason → Prop
  | .notImported => ∀ index, ¬corpus.PassesOn index file
  | .onlyThroughUnusedBarrel barrel =>
    ∃ index, index.path = barrel ∧ corpus.PassesOn index file ∧
      ∀ other, corpus.PassesOn other file → ¬other.path.Before index.path

end Corpus

variable {tree : FileTree} {corpus : Corpus}

/-! ## Texts -/

theorem containsText_iff {part text : List Char} :
    containsText part text = true ↔ part <:+: text := by
  induction text with
  | nil => simp [containsText]
  | cons c rest ih =>
      rw [containsText, Bool.or_eq_true, List.isPrefixOf_iff_prefix, ih,
        List.infix_cons_iff]

/-! ## Used files -/

private theorem mem_usedKeys {module : FileModule} {key : String} :
    key ∈ usedKeys module ↔
      ∃ record ∈ module.imports, ¬(isIndexFile module.path = true ∧
        module.forwards record = true) ∧
        ∃ path, record.resolved.bind Target.file? = some path ∧
          path.key ≠ module.path.key ∧ path.key = key := by
  unfold usedKeys
  rw [List.mem_filterMap]
  refine exists_congr fun record => and_congr_right fun _ => ?_
  rw [Option.ite_none_left_eq_some, Bool.and_eq_true]
  refine and_congr_right fun _ => ?_
  cases record.resolved.bind Target.file? with
  | none => simp
  | some path =>
    simp only [Option.ite_none_left_eq_some, Option.some.injEq, exists_eq_left']

theorem key_mem_usedKeys {file : Path} :
    file.key ∈ corpus.modules.flatMap usedKeys ↔ corpus.UsesFile file := by
  simp only [List.mem_flatMap, mem_usedKeys, Corpus.UsesFile,
    ImportRecord.resolvesTo_iff]
  constructor
  · rintro ⟨module, hmember, record, hrecord, hreal, path, hpath, hother, hkey⟩
    refine ⟨module, hmember, ?_, record, hrecord, ⟨path, hpath, hkey⟩, hreal⟩
    rw [Path.sameFile_eq_false_iff, ← hkey]
    exact Ne.symm hother
  · rintro ⟨module, hmember, hother, record, hrecord,
      ⟨path, hpath, hkey⟩, hreal⟩
    refine ⟨module, hmember, record, hrecord, hreal, path, hpath, ?_, hkey⟩
    rw [Path.sameFile_eq_false_iff] at hother
    rw [hkey]
    exact Ne.symm hother

/-! ## Index files that pass a file on -/

private theorem eq_of_not_before {modules : List FileModule}
    (h : modules.Pairwise fun first second => first.path.Before second.path)
    {first second : FileModule} (hfirst : first ∈ modules)
    (hsecond : second ∈ modules) (hnot : ¬first.path.Before second.path)
    (hnot' : ¬second.path.Before first.path) : first = second := by
  by_contra hne
  have hsymm : Std.Symm fun first second : FileModule =>
      first.path.Before second.path ∨ second.path.Before first.path :=
    ⟨fun _ _ => Or.symm⟩
  have hcomparable : modules.Pairwise fun first second =>
      first.path.Before second.path ∨ second.path.Before first.path :=
    h.imp .inl
  exact (hcomparable.forall hfirst hsecond hne).elim hnot hnot'

private theorem find?_eq_some_iff_first {modules : List FileModule}
    (h : modules.Pairwise fun first second => first.path.Before second.path)
    {p : FileModule → Bool} {module : FileModule} :
    modules.find? p = some module ↔
      module ∈ modules ∧ p module = true ∧
        ∀ other ∈ modules, p other = true → ¬other.path.Before module.path := by
  have hfirst {found : FileModule} (hfound : modules.find? p = some found) :
      ∀ other ∈ modules, p other = true → ¬other.path.Before found.path := by
    obtain ⟨-, before, after, rfl, hbefore⟩ :=
      List.find?_eq_some_iff_append.1 hfound
    intro other hother hp
    rcases List.mem_append.1 hother with hother | hother
    · exact absurd hp (by simpa using hbefore other hother)
    · rcases List.mem_cons.1 hother with rfl | hother
      · exact fun hself => hself.not_before hself
      · have hlater := (List.pairwise_append.1 h).2.1
        exact ((List.pairwise_cons.1 hlater).1 other hother).not_before
  constructor
  · intro hfound
    exact ⟨List.mem_of_find?_eq_some hfound, List.find?_some hfound,
      hfirst hfound⟩
  · rintro ⟨hmember, hp, hnone⟩
    obtain ⟨found, hfound⟩ :=
      Option.isSome_iff_exists.1 (List.find?_isSome.2 ⟨module, hmember, hp⟩)
    have hfoundMember := List.mem_of_find?_eq_some hfound
    rw [hfound, eq_of_not_before h hfoundMember hmember
      (hnone found hfoundMember (List.find?_some hfound))
      (hfirst hfound module hmember hp)]

namespace Corpus

def indexFiles (corpus : Corpus) : List FileModule :=
  corpus.modules.filter fun module => isIndexFile module.path

theorem mem_indexFiles {index : FileModule} :
    index ∈ corpus.indexFiles ↔
      index ∈ corpus.modules ∧ isIndexFile index.path = true :=
  List.mem_filter

theorem passesOn_iff (hloaded : corpus.Loaded tree)
    (hdistinct : corpus.DistinctFiles) {index : FileModule} {file : Path} :
    corpus.PassesOn index file ↔ index ∈ corpus.indexFiles ∧
      file.key ∈ passedOnKeys tree corpus index := by
  rw [mem_indexFiles, PassesOn, Path.sameFile_eq_false_iff, and_assoc]
  refine and_congr_right fun hmember => and_congr_right fun _ => ?_
  rw [key_mem_passedOnKeys hloaded hdistinct hmember, ne_comm]

def reasonFor : Option FileModule → UnusedReason
  | none => .notImported
  | some index => .onlyThroughUnusedBarrel index.path

def firstIndex? (tree : FileTree) (corpus : Corpus) (file : Path) :
    Option FileModule :=
  corpus.indexFiles.find? fun index =>
    (passedOnKeys tree corpus index).contains file.key

theorem firstIndex?_eq_some (hloaded : corpus.Loaded tree)
    (hdistinct : corpus.DistinctFiles) {file : Path} {index : FileModule} :
    firstIndex? tree corpus file = some index ↔
      corpus.PassesOn index file ∧ ∀ other, corpus.PassesOn other file →
      ¬other.path.Before index.path := by
  have hordered : corpus.indexFiles.Pairwise fun first second =>
      first.path.Before second.path :=
    hloaded.ordered.filter _
  rw [firstIndex?, find?_eq_some_iff_first hordered, ← and_assoc]
  simp only [passesOn_iff hloaded hdistinct, List.contains_iff_mem, and_imp]

private theorem firstIndex?_eq_none (hloaded : corpus.Loaded tree)
    (hdistinct : corpus.DistinctFiles) {file : Path} :
    firstIndex? tree corpus file = none ↔
      ∀ index, ¬corpus.PassesOn index file := by
  simp only [firstIndex?, List.find?_eq_none, passesOn_iff hloaded hdistinct,
    List.contains_iff_mem, not_and]

theorem explains_iff (hloaded : corpus.Loaded tree)
    (hdistinct : corpus.DistinctFiles) {file : Path} {reason : UnusedReason} :
    corpus.Explains file reason ↔
      reasonFor (firstIndex? tree corpus file) = reason := by
  cases hfirst : firstIndex? tree corpus file with
  | none =>
      have hnone := (firstIndex?_eq_none hloaded hdistinct).1 hfirst
      cases reason with
      | notImported => exact iff_of_true hnone rfl
      | onlyThroughUnusedBarrel barrel =>
          exact iff_of_false (fun ⟨index, _, hpasses, _⟩ => hnone index hpasses)
            (by simp [reasonFor])
  | some found =>
      have hfound := (firstIndex?_eq_some hloaded hdistinct).1 hfirst
      cases reason with
      | notImported =>
        exact iff_of_false (fun hnone => hnone found hfound.1)
          (by simp [reasonFor])
      | onlyThroughUnusedBarrel barrel =>
          simp only [reasonFor, UnusedReason.onlyThroughUnusedBarrel.injEq,
            Explains]
          constructor
          · rintro ⟨index, rfl, hindex⟩
            rw [(firstIndex?_eq_some hloaded hdistinct).2 hindex] at hfirst
            rw [Option.some.inj hfirst]
          · rintro rfl
            exact ⟨found, rfl, hfound⟩

theorem usesThroughIndex_iff (hloaded : corpus.Loaded tree)
    (hdistinct : corpus.DistinctFiles) {file : Path}
    (hunused : ¬corpus.UsesFile file) :
    corpus.UsesThroughIndex file ↔
      ∃ index ∈ corpus.indexFiles, corpus.UsesFile index.path ∧
        file.key ∈ passedOnKeys tree corpus index := by
  constructor
  · rintro ⟨index, hmember, hindex, huses, hchain⟩
    refine ⟨index, mem_indexFiles.2 ⟨hmember, hindex⟩, huses, ?_⟩
    -- A chain that leads back to its start is left out, but then the file is
    -- used itself.
    refine (key_mem_passedOnKeys hloaded hdistinct hmember).2
      ⟨fun hkey => hunused ?_, hchain⟩
    rw [← key_mem_usedKeys] at huses ⊢
    rwa [hkey]
  · rintro ⟨index, hindex, huses, hkey⟩
    obtain ⟨hmember, hname⟩ := mem_indexFiles.1 hindex
    exact ⟨index, hmember, hname, huses,
      ((key_mem_passedOnKeys hloaded hdistinct hmember).1 hkey).2⟩

end Corpus

/-! ## Unused files -/

def unusedFile? (tree : FileTree) (corpus : Corpus) (file : Path) :
    Option UnusedFile :=
  if (corpus.modules.flatMap usedKeys).contains file.key ||
      corpus.indexFiles.any fun index =>
        (corpus.modules.flatMap usedKeys).contains index.path.key &&
          (passedOnKeys tree corpus index).contains file.key then none
  else some ⟨file, Corpus.reasonFor (Corpus.firstIndex? tree corpus file)⟩

theorem unusedFiles_eq (tree : FileTree) (corpus : Corpus)
    (filter : Option String) :
    unusedFiles tree corpus filter =
      (corpus.modules.filter fun module =>
        filter.all fun part =>
          containsText part.toList module.path.text.toList).filterMap
          fun module => unusedFile? tree corpus module.path := by
  have hreached (key : String) :
      ((((corpus.modules.filter fun module => isIndexFile module.path).map
        fun module =>
        (module, passedOnKeys tree corpus module)).filter fun index =>
          (corpus.modules.flatMap usedKeys).contains index.1.path.key).flatMap
            Prod.snd).contains key =
        corpus.indexFiles.any fun index =>
          (corpus.modules.flatMap usedKeys).contains index.path.key &&
            (passedOnKeys tree corpus index).contains key := by
    rw [List.filter_map, List.flatMap_map, List.contains_eq_any_beq,
      List.any_flatMap, List.any_filter]
    simp only [← List.contains_eq_any_beq]
    rfl
  simp only [unusedFiles, hreached]
  refine congrArg₂ List.filterMap (funext fun module => ?_)
    (List.filter_congr fun module _ => ?_)
  · rw [unusedFile?]
    refine if_congr Iff.rfl rfl ?_
    have hfirst :
        (corpus.modules.filter fun module => isIndexFile module.path).find?
        ((fun index : FileModule × List String =>
          index.2.contains module.path.key) ∘
          fun module => (module, passedOnKeys tree corpus module)) =
        Corpus.firstIndex? tree corpus module.path := rfl
    rw [List.find?_map, hfirst]
    cases Corpus.firstIndex? tree corpus module.path <;> rfl
  · cases filter <;> rfl

theorem unusedFile?_eq_some (hloaded : corpus.Loaded tree)
    (hdistinct : corpus.DistinctFiles) {file : Path} {unused : UnusedFile} :
    unusedFile? tree corpus file = some unused ↔
      unused.file = file ∧ ¬corpus.UsesFile file ∧
      ¬corpus.UsesThroughIndex file ∧
        corpus.Explains file unused.reason := by
  have hused : (corpus.modules.flatMap usedKeys).contains file.key = true ↔
      corpus.UsesFile file := by
    rw [List.contains_iff_mem, key_mem_usedKeys]
  have hreached : (corpus.indexFiles.any fun index =>
      (corpus.modules.flatMap usedKeys).contains index.path.key &&
        (passedOnKeys tree corpus index).contains file.key) = true ↔
      ∃ index ∈ corpus.indexFiles, corpus.UsesFile index.path ∧
        file.key ∈ passedOnKeys tree corpus index := by
    simp only [List.any_eq_true, Bool.and_eq_true, List.contains_iff_mem,
      key_mem_usedKeys]
  rw [unusedFile?, Option.ite_none_left_eq_some, Bool.or_eq_true, hused,
    hreached, not_or, and_assoc]
  constructor
  · rintro ⟨hunused, hreached, heq⟩
    obtain rfl := Option.some.inj heq
    exact ⟨rfl, hunused,
      (Corpus.usesThroughIndex_iff hloaded hdistinct hunused).not.2 hreached,
      (Corpus.explains_iff hloaded hdistinct).2 rfl⟩
  · rintro ⟨rfl, hunused, hreached, hexplains⟩
    refine ⟨hunused,
      (Corpus.usesThroughIndex_iff hloaded hdistinct hunused).not.1 hreached,
      ?_⟩
    rw [(Corpus.explains_iff hloaded hdistinct).1 hexplains]

/--
The unused files of a loaded corpus whose paths contain the filter are reported
in path order, each once. They are the files that no other module really
imports and that no really imported index file passes on.  The reason names the
first index file that passes the file on, if there is one.
-/
theorem unusedFiles_are_complement_of_used (hloaded : corpus.Loaded tree)
    (hdistinct : corpus.DistinctFiles) (filter : Option String) :
    ((unusedFiles tree corpus filter).map UnusedFile.file).Pairwise
      Path.Before ∧
      ∀ unused, unused ∈ unusedFiles tree corpus filter ↔
        ∃ module ∈ corpus.modules, unused.file = module.path ∧
          (∀ part, filter = some part →
            part.toList <:+: module.path.text.toList) ∧
          ¬corpus.UsesFile module.path ∧ ¬corpus.UsesThroughIndex module.path ∧
          corpus.Explains module.path unused.reason := by
  rw [unusedFiles_eq]
  constructor
  · rw [List.pairwise_map, List.pairwise_filterMap]
    refine (hloaded.ordered.filter _).imp ?_
    intro first second hbefore unused hunused later hlater
    rw [((unusedFile?_eq_some hloaded hdistinct).1 hunused).1,
      ((unusedFile?_eq_some hloaded hdistinct).1 hlater).1]
    exact hbefore
  · intro unused
    have hmatches (module : FileModule) :
        (filter.all fun part =>
          containsText part.toList module.path.text.toList) = true ↔
          ∀ part, filter = some part →
            part.toList <:+: module.path.text.toList := by
      cases filter <;> simp [containsText_iff]
    simp only [List.mem_filterMap, List.mem_filter, hmatches,
      unusedFile?_eq_some hloaded hdistinct]
    refine exists_congr fun module => ?_
    rw [and_assoc]
    exact and_congr_right fun _ => and_left_comm

def indexTree : FileTree :=
  ⟨[("a.ts", .file (some "")),
    ("index.ts", .file (some "export \x7b A \x7d from './a';")),
    ("lib", .directory [("b.ts", .file (some "")),
      ("index.ts", .file (some "export * from './b';"))]),
    ("main.ts", .file (some "import \x7b B \x7d from './lib';"))]⟩

def indexCorpus : Corpus :=
  ((Corpus.new ⟨"/"⟩ (Resolver.new none)).loadAll indexTree
    [⟨"/a.ts"⟩, ⟨"/index.ts"⟩, ⟨"/lib/b.ts"⟩, ⟨"/lib/index.ts"⟩, ⟨"/main.ts"⟩]
    defaultBatchSize).1

theorem unused_barrel_explains_unused_file :
    unusedFiles indexTree indexCorpus none =
        [⟨⟨"/a.ts"⟩, .onlyThroughUnusedBarrel ⟨"/index.ts"⟩⟩,
          ⟨⟨"/index.ts"⟩, .notImported⟩, ⟨⟨"/main.ts"⟩, .notImported⟩] ∧
      ¬indexCorpus.UsesFile ⟨"/a.ts"⟩ ∧
        ¬indexCorpus.UsesThroughIndex ⟨"/a.ts"⟩ ∧
      indexCorpus.Explains ⟨"/a.ts"⟩
        (.onlyThroughUnusedBarrel ⟨"/index.ts"⟩) := by
  obtain ⟨hdistinct, hunused⟩ :
      (∀ first ∈ indexCorpus.knownPaths, ∀ second ∈ indexCorpus.knownPaths,
          first.key = second.key → first.same second = true) ∧
        unusedFiles indexTree indexCorpus none =
          [⟨⟨"/a.ts"⟩, .onlyThroughUnusedBarrel ⟨"/index.ts"⟩⟩,
            ⟨⟨"/index.ts"⟩, .notImported⟩, ⟨⟨"/main.ts"⟩, .notImported⟩] := by
    decide +kernel
  have hloaded : indexCorpus.Loaded indexTree :=
    (Corpus.loaded_new indexTree _ _).loadAll _ _
  have hmem : ⟨⟨"/a.ts"⟩, .onlyThroughUnusedBarrel ⟨"/index.ts"⟩⟩ ∈
      unusedFiles indexTree indexCorpus none := by
    rw [hunused]
    exact List.mem_cons_self
  obtain ⟨module, -, hfile, -, hspec⟩ :=
    ((unusedFiles_are_complement_of_used hloaded hdistinct none).2 _).1 hmem
  rw [← hfile] at hspec
  exact ⟨hunused, hspec⟩

end ImportAtlas
