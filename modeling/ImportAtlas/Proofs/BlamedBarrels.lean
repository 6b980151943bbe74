import ImportAtlas.Proofs.NotImported

/-!
# Blamed barrels

An unused file that index files pass on is blamed on the first of them.  That
index file is unused itself.  If it were imported, it would pass the file on as
a used one; and if a used index file passed it on, the chains of the two would
compose to a chain that ends in the file.
-/

namespace ImportAtlas

namespace Corpus

variable {corpus : Corpus} {index : FileModule} {file : Path}

theorem UsesFile.through (h : corpus.UsesFile index.path)
    (hpasses : corpus.PassesOn index file) :
    corpus.UsesThroughIndex file := by
  obtain ⟨hmember, hindex, -, hchain⟩ := hpasses
  exact ⟨index, hmember, hindex, h, hchain⟩

theorem UsesThroughIndex.through (h : corpus.UsesThroughIndex index.path)
    (hpasses : corpus.PassesOn index file) :
    corpus.UsesThroughIndex file := by
  obtain ⟨outer, houter, hname, huses, hchain⟩ := h
  obtain ⟨hmember, hindex, -, hrest⟩ := hpasses
  exact ⟨outer, houter, hname, huses, hchain.trans hmember hindex hrest⟩

end Corpus

variable {tree : FileTree} {corpus : Corpus}

private theorem unusedFile?_eq_some_of_passesOn (hloaded : corpus.Loaded tree)
    (hdistinct : corpus.DistinctFiles) {index : FileModule} {file : Path}
    {unused : UnusedFile} (hpasses : corpus.PassesOn index file)
    (h : unusedFile? tree corpus file = some unused) :
    ∃ reason, unusedFile? tree corpus index.path =
      some ⟨index.path, reason⟩ := by
  obtain ⟨-, -, hreached, -⟩ := (unusedFile?_eq_some hloaded hdistinct).1 h
  refine ⟨Corpus.reasonFor (Corpus.firstIndex? tree corpus index.path), ?_⟩
  rw [unusedFile?_eq_some hloaded hdistinct]
  refine ⟨rfl, ?_, ?_, (Corpus.explains_iff hloaded hdistinct).2 rfl⟩
  · exact fun huses => hreached (huses.through hpasses)
  · exact fun huses => hreached (huses.through hpasses)

/--
In a loaded corpus without two paths for one file, the barrel that an unused
file is blamed on is an index file of the corpus, and it is reported as unused
itself.
-/
theorem blamed_barrel_is_reported (hloaded : corpus.Loaded tree)
    (hdistinct : corpus.DistinctFiles) {file barrel : Path}
    (h : ⟨file, .onlyThroughUnusedBarrel barrel⟩ ∈
      unusedFiles tree corpus none) :
    ∃ index ∈ corpus.modules, index.path = barrel ∧
      isIndexFile index.path = true ∧
      ∃ reason, ⟨index.path, reason⟩ ∈ unusedFiles tree corpus none := by
  obtain ⟨module, -, hfile, hunused⟩ := exists_module_of_mem_unusedFiles h
  obtain ⟨-, -, -, index, hbarrel, hpasses, -⟩ :=
    (unusedFile?_eq_some hloaded hdistinct).1 hunused
  obtain ⟨reason, hreported⟩ :=
    unusedFile?_eq_some_of_passesOn hloaded hdistinct hpasses hunused
  obtain ⟨hmember, hindex, -, -⟩ := hpasses
  exact ⟨index, hmember, hbarrel, hindex, reason,
    (mem_unusedFiles hmember).2 ⟨by simp, hreported⟩⟩

def circleTree : FileTree :=
  ⟨[("index.ts", .file (some "export * from './lib';")),
    ("lib", .directory [("a.ts", .file (some "")),
      ("index.ts", .file (some "export * from './a';\nexport * from '..';"))])]⟩

def circleCorpus : Corpus :=
  ((Corpus.new ⟨"/"⟩ (Resolver.new none)).loadAll circleTree
    [⟨"/index.ts"⟩, ⟨"/lib/a.ts"⟩, ⟨"/lib/index.ts"⟩] defaultBatchSize).1

theorem circle_blamed_on_reported_barrel :
    ⟨⟨"/lib/a.ts"⟩, .onlyThroughUnusedBarrel ⟨"/index.ts"⟩⟩ ∈
        unusedFiles circleTree circleCorpus none ∧
      ∃ index ∈ circleCorpus.modules, index.path = ⟨"/index.ts"⟩ ∧
        isIndexFile index.path = true ∧
        ∃ reason,
          ⟨index.path, reason⟩ ∈ unusedFiles circleTree circleCorpus none := by
  obtain ⟨hdistinct, hunused⟩ :
      (∀ first ∈ circleCorpus.knownPaths, ∀ second ∈ circleCorpus.knownPaths,
          first.key = second.key → first.same second = true) ∧
        ⟨⟨"/lib/a.ts"⟩, .onlyThroughUnusedBarrel ⟨"/index.ts"⟩⟩ ∈
          unusedFiles circleTree circleCorpus none := by
    decide +kernel
  have hloaded : circleCorpus.Loaded circleTree :=
    (Corpus.loaded_new circleTree _ _).loadAll _ _
  exact ⟨hunused, blamed_barrel_is_reported hloaded hdistinct hunused⟩

end ImportAtlas
