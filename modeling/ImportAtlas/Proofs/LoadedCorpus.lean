import ImportAtlas.Corpus.Loading
import ImportAtlas.Proofs.FileIdentity
import ImportAtlas.Proofs.KeyedList
import Mathlib.Data.List.Nodup
import Mathlib.Data.List.Pairwise

/-!
# What loading keeps

However files are loaded, the modules of a corpus stay in strictly increasing
path order.  While the file system stays as it is, every import of a loaded
module is resolved to what its specifier leads to.
-/

namespace ImportAtlas

open Std

namespace Corpus

def Ordered (corpus : Corpus) : Prop :=
  corpus.modules.Pairwise fun first second => first.path.Before second.path

/-- Every import was resolved in the given file system. -/
def ResolvedIn (tree : FileTree) (corpus : Corpus) : Prop :=
  ∀ module ∈ corpus.modules, ∀ record ∈ module.imports,
    record.resolved = corpus.resolver.resolve tree record.specifier module.path

structure Loaded (tree : FileTree) (corpus : Corpus) : Prop where
  ordered : corpus.Ordered
  resolved : corpus.ResolvedIn tree

/-! ## One file -/

theorem mem_insertModule {added module : FileModule} {modules : List FileModule}
    (h : module ∈ insertModule added modules) :
    module = added ∨ module ∈ modules := by
  fun_induction insertModule added modules with
  | case1 => exact .inl (List.mem_singleton.1 h)
  | case2 => exact List.mem_cons.1 h
  | case3 other others _ =>
      rcases List.mem_cons.1 h with h | h
      · exact .inl h
      · exact .inr (List.mem_cons_of_mem other h)
  | case4 other others _ ih =>
      rcases List.mem_cons.1 h with rfl | h
      · exact .inr List.mem_cons_self
      · exact (ih h).imp id (List.mem_cons_of_mem other)

theorem insertModule_ordered (added : FileModule) {modules : List FileModule}
    (h : modules.Pairwise fun first second => first.path.Before second.path) :
    (insertModule added modules).Pairwise fun first second =>
      first.path.Before second.path := by
  fun_induction insertModule added modules with
  | case1 => exact List.pairwise_singleton _ _
  | case2 other others hlt =>
      refine List.pairwise_cons.2 ⟨?_, h⟩
      intro module hmodule
      rcases List.mem_cons.1 hmodule with rfl | hmodule
      · exact hlt
      · exact Path.Before.trans hlt ((List.pairwise_cons.1 h).1 module hmodule)
  | case3 other others heq =>
      refine List.pairwise_cons.2 ⟨?_, (List.pairwise_cons.1 h).2⟩
      intro module hmodule
      exact TransCmp.lt_of_eq_of_lt heq
        ((List.pairwise_cons.1 h).1 module hmodule)
  | case4 other others hgt ih =>
      refine List.pairwise_cons.2 ⟨?_, ih (List.pairwise_cons.1 h).2⟩
      intro module hmodule
      rcases mem_insertModule hmodule with rfl | hmodule
      · exact OrientedCmp.lt_of_gt hgt
      · exact (List.pairwise_cons.1 h).1 module hmodule

private theorem analyzeSource_path {language : SourceLanguage} {path : Path}
    {text : String} {module : FileModule}
    (h : analyzeSource language path text = .ok module) :
    module.path = path := by
  unfold analyzeSource at h
  generalize sourceItems language path text.toList = items at h
  cases items with
  | error error => contradiction
  | ok items =>
      obtain rfl := Except.ok.inj h
      rfl

theorem analyzeFile_path {tree : FileTree} {path : Path} {module : FileModule}
    (h : analyzeFile tree path = .ok module) : module.path = path := by
  unfold analyzeFile at h
  split at h
  · contradiction
  · split at h
    · contradiction
    · exact analyzeSource_path h

/-- All that loading a file can do. -/
theorem load_cases (tree : FileTree) (corpus : Corpus) (path : Path) :
    corpus.load tree path = corpus ∨
      (∃ failure, corpus.load tree path =
        { corpus with failed := corpus.failed ++ [failure] }) ∨
      ∃ module, module.path = path ∧ (corpus.module? path).isSome = false ∧
        corpus.load tree path =
          { corpus with
            modules :=
              insertModule (resolveImports tree corpus.resolver module)
                corpus.modules } := by
  simp only [load]
  split
  · exact .inl rfl
  · rename_i hknown
    split
    · rename_i module hmodule
      exact .inr (.inr ⟨module, analyzeFile_path hmodule, by simp_all, rfl⟩)
    · exact .inr (.inl ⟨_, rfl⟩)

theorem resolveImports_resolved (tree : FileTree) (resolver : Resolver)
    (module : FileModule) :
    ∀ record ∈ (resolveImports tree resolver module).imports,
      record.resolved = resolver.resolve tree record.specifier module.path := by
  intro record hrecord
  obtain ⟨source, -, heq⟩ := List.mem_map.1 hrecord
  simp only [← heq]

theorem Ordered.load {corpus : Corpus} (h : corpus.Ordered) (tree : FileTree)
    (path : Path) :
    (corpus.load tree path).Ordered := by
  rcases load_cases tree corpus path
    with heq | ⟨failure, heq⟩ | ⟨module, -, -, heq⟩ <;> rw [heq]
  · exact h
  · exact h
  · exact insertModule_ordered _ h

theorem ResolvedIn.load {tree : FileTree} {corpus : Corpus}
    (h : corpus.ResolvedIn tree) (path : Path) :
    (corpus.load tree path).ResolvedIn tree := by
  rcases load_cases tree corpus path
    with heq | ⟨failure, heq⟩ | ⟨module, -, -, heq⟩ <;> rw [heq]
  · exact h
  · exact h
  · intro loaded hloaded
    rcases mem_insertModule hloaded with rfl | hloaded
    · exact resolveImports_resolved tree corpus.resolver module
    · exact h loaded hloaded

theorem loaded_new (tree : FileTree) (root : Path) (resolver : Resolver) :
    (new root resolver).Loaded tree :=
  ⟨List.Pairwise.nil, by simp [ResolvedIn, new]⟩

theorem Loaded.load {tree : FileTree} {corpus : Corpus} (h : corpus.Loaded tree)
    (path : Path) :
    (corpus.load tree path).Loaded tree :=
  ⟨h.ordered.load tree path, h.resolved.load path⟩

/-! ## Many files -/

theorem Loaded.loadBatch {tree : FileTree} {corpus : Corpus}
    (h : corpus.Loaded tree) (paths : List Path) :
    (corpus.loadBatch tree paths).Loaded tree := by
  induction paths generalizing corpus with
  | nil => exact h
  | cons path paths ih => exact ih (h.load path)

theorem Loaded.loadBatches {tree : FileTree} {corpus : Corpus}
    (h : corpus.Loaded tree) (total batch processed : Nat)
    (pieces : List (List Path)) :
    (corpus.loadBatches tree total batch processed pieces).1.Loaded tree := by
  induction pieces generalizing corpus batch processed with
  | nil => exact h
  | cons paths pieces ih => exact ih (h.loadBatch paths) _ _

theorem Loaded.loadAll {tree : FileTree} {corpus : Corpus}
    (h : corpus.Loaded tree) (paths : List Path) (batchSize : Nat) :
    (corpus.loadAll tree paths batchSize).1.Loaded tree :=
  h.loadBatches _ _ _ _

end Corpus

theorem Scan.run_loaded {tree : FileTree} {root : Path} {options : ScanOptions}
    {scan : Scan} (h : Scan.run tree root options = .ok scan) :
    scan.corpus.Loaded tree := by
  unfold Scan.run at h
  extract_lets absolute at h
  generalize findFiles tree absolute options.includes options.excludes =
    found at h
  cases found with
  | error error => contradiction
  | ok files =>
      obtain rfl := Except.ok.inj h
      exact (Corpus.loaded_new tree _ _).loadAll files options.batchSize

/-! ## Where imports lead -/

theorem Target.isFile_congr {first second : Path} (h : first.key = second.key)
    (target : Target) :
    target.isFile first = target.isFile second := by
  cases target with
  | file path => simp [Target.isFile, Path.sameFile, h]
  | package name => rfl

def ImportRecord.ResolvesTo (record : ImportRecord) (file : Path) : Prop :=
  ∃ found, record.resolved = some found ∧ found.isFile file = true

namespace Corpus

variable {tree : FileTree} {corpus : Corpus}

theorem ResolvedIn.targetOf_eq (h : corpus.ResolvedIn tree)
    {module : FileModule} (hmember : module ∈ corpus.modules)
    {record : ImportRecord} (hrecord : record ∈ module.imports) :
    corpus.resolver.targetOf tree module.path record = record.resolved := by
  have hresolved := h module hmember record hrecord
  unfold Resolver.targetOf
  cases hfound : record.resolved with
  | none => rw [← hresolved, hfound]
  | some found => rfl

theorem ResolvedIn.leadsTo_iff (h : corpus.ResolvedIn tree)
    {module : FileModule} (hmember : module ∈ corpus.modules)
    {record : ImportRecord} (hrecord : record ∈ module.imports) {file : Path} :
    corpus.resolver.leadsTo tree module.path record file = true ↔
      record.ResolvesTo file := by
  unfold Resolver.leadsTo ImportRecord.ResolvesTo
  rw [h.targetOf_eq hmember hrecord]
  cases record.resolved with
  | none => simp
  | some found => simp

/-! ## Modules by their identities -/

theorem mem_of_module? {path : Path} {module : FileModule}
    (h : corpus.module? path = some module) :
    module ∈ corpus.modules ∧ module.path.same path = true :=
  ⟨List.mem_of_find?_eq_some h, by simpa using List.find?_some h⟩

def DistinctKeys (corpus : Corpus) : Prop :=
  (corpus.modules.map fun module => module.path.key).Nodup

instance (corpus : Corpus) : Decidable corpus.DistinctKeys :=
  inferInstanceAs (Decidable (List.Nodup _))

theorem DistinctKeys.eq_of_key (h : corpus.DistinctKeys)
    {first second : FileModule} (hfirst : first ∈ corpus.modules)
    (hsecond : second ∈ corpus.modules)
    (hkey : first.path.key = second.path.key) : first = second :=
  List.inj_on_of_nodup_map h hfirst hsecond hkey

theorem DistinctKeys.nodup_filterMap {α : Type} (h : corpus.DistinctKeys)
    {make? : FileModule → Option α}
    {key : α → String}
    (hkey : ∀ module item,
      make? module = some item → key item = module.path.key) :
    ((corpus.modules.filterMap make?).map key).Nodup :=
  nodup_keys_filterMap h hkey

def DistinctPaths (corpus : Corpus) : Prop :=
  corpus.modules.Pairwise fun first second => first.path.same second.path ≠ true

theorem Ordered.distinctPaths (h : corpus.Ordered) : corpus.DistinctPaths :=
  h.imp Path.Before.not_same

theorem DistinctKeys.distinctPaths (h : corpus.DistinctKeys) :
    corpus.DistinctPaths :=
  (List.pairwise_map.1 h).imp fun hkeys hsame =>
    hkeys (Path.key_eq_of_same hsame)

private theorem DistinctPaths.eq_of_same (h : corpus.DistinctPaths)
    {first second : FileModule} (hfirst : first ∈ corpus.modules)
    (hsecond : second ∈ corpus.modules)
    (hsame : first.path.same second.path = true) : first = second := by
  by_contra hne
  have hsymm : Std.Symm fun first second : FileModule =>
      first.path.same second.path ≠ true :=
    ⟨fun _ _ hother hback => hother (Path.same_symm hback)⟩
  exact h.forall hfirst hsecond hne hsame

theorem DistinctPaths.module?_eq (h : corpus.DistinctPaths)
    {module : FileModule} (hmember : module ∈ corpus.modules) :
    corpus.module? module.path = some module := by
  cases hfound : corpus.module? module.path with
  | none =>
      have hnone := List.find?_eq_none.1 hfound module hmember
      exact absurd (Path.same_refl module.path) hnone
  | some found =>
      obtain ⟨hmem, hsame⟩ := mem_of_module? hfound
      rw [h.eq_of_same hmem hmember hsame]

def unmarked (corpus : Corpus) (keys : List String) : List FileModule :=
  corpus.modules.filter fun module => !keys.contains module.path.key

theorem unmarked_cons (corpus : Corpus) (key : String) (keys : List String) :
    corpus.unmarked (key :: keys) = (corpus.unmarked keys).filter fun module =>
      module.path.key != key := by
  simp only [unmarked, List.filter_filter, List.contains_cons, Bool.not_or]
  rfl

theorem length_unmarked_cons_le (corpus : Corpus) (key : String)
    (keys : List String) :
    (corpus.unmarked (key :: keys)).length ≤ (corpus.unmarked keys).length := by
  rw [unmarked_cons]
  exact List.length_filter_le _ _

theorem length_unmarked_cons_lt {module : FileModule}
    (hmember : module ∈ corpus.modules) {keys : List String}
    (hkey : module.path.key ∉ keys) :
    (corpus.unmarked (module.path.key :: keys)).length <
      (corpus.unmarked keys).length := by
  rw [unmarked_cons, List.length_filter_lt_length_iff_exists]
  exact ⟨module, List.mem_filter.2 ⟨hmember, by simpa using hkey⟩, by simp⟩

end Corpus

/-! ## A small project -/

def forkTree : FileTree :=
  ⟨[("a.ts", .file (some "export \x7b A \x7d from './t';")),
    ("b.ts", .file (some "export \x7b B \x7d from './t';")),
    ("hub.ts", .file (some "export * from './a';\nexport * from './b';")),
    ("t.ts", .file (some "")),
    ("user.ts", .file (some "import \x7b B \x7d from './hub';"))]⟩

def forkCorpus : Corpus :=
  ((Corpus.new ⟨"/"⟩ (Resolver.new none)).loadAll forkTree
    [⟨"/a.ts"⟩, ⟨"/b.ts"⟩, ⟨"/hub.ts"⟩, ⟨"/t.ts"⟩, ⟨"/user.ts"⟩]
    defaultBatchSize).1

theorem forkCorpus_loaded : forkCorpus.Loaded forkTree :=
  (Corpus.loaded_new forkTree _ _).loadAll _ _

end ImportAtlas
