import ImportAtlas.Proofs.LoadedCorpus
import Mathlib.Data.List.Induction

/-!
# What a corpus remembers

Files are loaded one after another, and the file system may change between two
loads.  Whatever the history, the corpus holds the answers of the first loads:
a module for every file that could be loaded when it was first asked for, a
failure for every other one, and nothing else.
-/

namespace ImportAtlas

/-- A load: the file system as it stands at that time, and the path that is
asked for. -/
structure LoadCall where
  tree : FileTree
  path : Path

namespace LoadCall

def answer (resolver : Resolver) (call : LoadCall) :
    Except FailedFile FileModule :=
  match analyzeFile call.tree call.path with
  | .ok module => .ok (Corpus.resolveImports call.tree resolver module)
  | .error error => .error ⟨call.path, error.message⟩

def module? (resolver : Resolver) (call : LoadCall) : Option FileModule :=
  match call.answer resolver with
  | .ok module => some module
  | .error _ => none

def failure? (resolver : Resolver) (call : LoadCall) : Option FailedFile :=
  match call.answer resolver with
  | .ok _ => none
  | .error failure => some failure

end LoadCall

def firstLoads (calls : List LoadCall) : List LoadCall :=
  firstBy (fun call => call.path.components) calls

def firstLoad? (calls : List LoadCall) (path : Path) : Option LoadCall :=
  calls.find? fun call => call.path.same path

namespace Corpus

def loadCalls (corpus : Corpus) (calls : List LoadCall) : Corpus :=
  calls.foldl (fun corpus call => corpus.load call.tree call.path) corpus

def failure? (corpus : Corpus) (path : Path) : Option FailedFile :=
  corpus.failed.find? fun failure => failure.path.same path

def answer? (corpus : Corpus) (path : Path) :
    Option (Except FailedFile FileModule) :=
  match corpus.module? path with
  | some module => some (.ok module)
  | none => (corpus.failure? path).map .error

end Corpus

/-! ## First loads -/

namespace LoadCall

variable {resolver : Resolver} {call : LoadCall}

theorem module?_eq_some {module : FileModule} :
    call.module? resolver = some module ↔
      call.answer resolver = .ok module := by
  unfold module?
  cases call.answer resolver <;> simp

theorem failure?_eq_some {failure : FailedFile} :
    call.failure? resolver = some failure ↔
      call.answer resolver = .error failure := by
  unfold failure?
  cases call.answer resolver <;> simp

theorem module?_eq_none {failure : FailedFile}
    (h : call.answer resolver = .error failure) :
    call.module? resolver = none := by
  unfold module?
  rw [h]

theorem failure?_eq_none {module : FileModule}
    (h : call.answer resolver = .ok module) :
    call.failure? resolver = none := by
  unfold failure?
  rw [h]

theorem answer_eq_ok {module : FileModule}
    (h : call.answer resolver = .ok module) :
    module.path = call.path ∧
      ∀ record ∈ module.imports, record.resolved =
        resolver.resolve call.tree record.specifier call.path := by
  unfold answer at h
  split at h
  · rename_i read hread
    obtain rfl := Except.ok.inj h
    rw [← Corpus.analyzeFile_path hread]
    exact ⟨rfl, Corpus.resolveImports_resolved call.tree resolver read⟩
  · contradiction

theorem answer_eq_error {failure : FailedFile}
    (h : call.answer resolver = .error failure) :
    failure.path = call.path := by
  unfold answer at h
  split at h
  · contradiction
  · rw [← Except.error.inj h]

private theorem length_answers (resolver : Resolver) (calls : List LoadCall) :
    (calls.filterMap (module? resolver)).length +
      (calls.filterMap (failure? resolver)).length = calls.length := by
  induction calls with
  | nil => rfl
  | cons call calls ih =>
      cases hanswer : call.answer resolver with
      | ok module =>
          rw [List.filterMap_cons_some (module?_eq_some.2 hanswer),
            List.filterMap_cons_none (failure?_eq_none hanswer),
            List.length_cons, List.length_cons, ← ih]
          omega
      | error failure =>
          rw [List.filterMap_cons_some (failure?_eq_some.2 hanswer),
            List.filterMap_cons_none (module?_eq_none hanswer),
            List.length_cons, List.length_cons, ← ih]
          omega

end LoadCall

theorem find?_same_eq {α : Type} (place : α → Path) (items : List α)
    (path : Path) :
    (items.find? fun item => (place item).same path) =
      items.find? fun item => (place item).components = path.components := by
  congr 1
  funext item
  rw [Bool.eq_iff_iff, Path.same_iff, decide_eq_true_eq]

theorem firstLoad?_eq_some {calls : List LoadCall} {path : Path}
    {call : LoadCall} :
    firstLoad? calls path = some call ↔
      call ∈ firstLoads calls ∧ call.path.components = path.components := by
  rw [firstLoad?, find?_same_eq, ← find?_firstBy fun call : LoadCall =>
    call.path.components, find?_key_eq_some (nodup_keys_firstBy _ _),
    firstLoads]

private theorem firstLoads_concat_of_old {calls : List LoadCall}
    {call : LoadCall}
    (h : ∃ earlier ∈ calls, earlier.path.same call.path = true) :
    firstLoads (calls ++ [call]) = firstLoads calls := by
  simp only [Path.same_iff] at h
  rw [firstLoads, firstBy_concat, if_pos (List.mem_map.2 h), firstLoads]

private theorem firstLoads_concat_of_new {calls : List LoadCall}
    {call : LoadCall}
    (h : ¬∃ earlier ∈ calls, earlier.path.same call.path = true) :
    firstLoads (calls ++ [call]) = firstLoads calls ++ [call] := by
  simp only [Path.same_iff] at h
  rw [firstLoads, firstBy_concat, if_neg fun hmem => h (List.mem_map.1 hmem),
    firstLoads]

private theorem firstLoad?_isSome {calls : List LoadCall} {path : Path} :
    (firstLoad? calls path).isSome = true ↔
      ∃ call ∈ calls, call.path.same path = true :=
  List.find?_isSome

/-! ## One load -/

namespace Corpus

variable {corpus : Corpus} {resolver : Resolver} {calls : List LoadCall}

theorem module?_eq (path : Path) :
    corpus.module? path = corpus.modules.find? fun module =>
      module.path.components = path.components :=
  find?_same_eq FileModule.path corpus.modules path

private theorem failure?_eq (path : Path) :
    corpus.failure? path = corpus.failed.find? fun failure =>
      failure.path.components = path.components :=
  find?_same_eq FailedFile.path corpus.failed path

theorem hasFailed_eq (path : Path) :
    corpus.hasFailed path = (corpus.failure? path).isSome := by
  rw [Bool.eq_iff_iff, hasFailed, failure?, List.find?_isSome, List.any_eq_true]

def knows (corpus : Corpus) (path : Path) : Bool :=
  corpus.hasFailed path || (corpus.module? path).isSome

private theorem knows_eq (path : Path) :
    corpus.knows path = (corpus.answer? path).isSome := by
  rw [knows, hasFailed_eq, answer?]
  cases corpus.module? path <;> simp

theorem load_of_known (tree : FileTree) {path : Path}
    (h : corpus.knows path = true) :
    corpus.load tree path = corpus :=
  if_pos h

private theorem load_of_unknown {call : LoadCall}
    (h : corpus.knows call.path = false) :
    corpus.load call.tree call.path =
      match call.answer corpus.resolver with
      | .ok module =>
        { corpus with modules := insertModule module corpus.modules }
      | .error failure =>
        { corpus with failed := corpus.failed ++ [failure] } := by
  have hunknown : ¬(corpus.hasFailed call.path ||
      (corpus.module? call.path).isSome) = true := by
    rw [← knows, h]
    exact Bool.false_ne_true
  unfold load LoadCall.answer
  rw [if_neg hunknown]
  cases analyzeFile call.tree call.path <;> rfl

private theorem insertModule_perm {added : FileModule}
    {modules : List FileModule}
    (h : ∀ module ∈ modules, module.path.same added.path = false) :
    (insertModule added modules).Perm (added :: modules) := by
  fun_induction insertModule added modules with
  | case1 => exact .refl _
  | case2 => exact .refl _
  | case3 other others heq =>
      have hsame := Path.same_symm (Path.compare_eq_iff_same.1 heq)
      simp [h other List.mem_cons_self] at hsame
  | case4 other others _ ih =>
      have hrest :=
        ih fun module hmodule => h module (List.mem_cons_of_mem other hmodule)
      exact (hrest.cons other).trans (.swap added other others)

/-! ## Any history -/

structure HoldsFirstAnswers (resolver : Resolver) (calls : List LoadCall)
    (corpus : Corpus) : Prop where
  keptResolver : corpus.resolver = resolver
  modules :
    corpus.modules.Perm
      ((firstLoads calls).filterMap (LoadCall.module? resolver))
  failed :
    corpus.failed = (firstLoads calls).filterMap (LoadCall.failure? resolver)

private theorem holdsFirstAnswers_new (root : Path) (resolver : Resolver) :
    (new root resolver).HoldsFirstAnswers resolver [] :=
  ⟨rfl, .refl _, rfl⟩

namespace HoldsFirstAnswers

variable {path : Path}

theorem mem_modules (h : corpus.HoldsFirstAnswers resolver calls)
    {module : FileModule} :
    module ∈ corpus.modules ↔
      ∃ call ∈ firstLoads calls, call.answer resolver = .ok module := by
  simp only [h.modules.mem_iff, List.mem_filterMap, LoadCall.module?_eq_some]

theorem mem_failed (h : corpus.HoldsFirstAnswers resolver calls)
    {failure : FailedFile} :
    failure ∈ corpus.failed ↔
      ∃ call ∈ firstLoads calls, call.answer resolver = .error failure := by
  simp only [h.failed, List.mem_filterMap, LoadCall.failure?_eq_some]

private theorem nodup_modules (h : corpus.HoldsFirstAnswers resolver calls) :
    (corpus.modules.map fun module => module.path.components).Nodup := by
  rw [(h.modules.map _).nodup_iff]
  refine nodup_keys_filterMap (nodup_keys_firstBy _ calls) fun call module
    hmodule => ?_
  rw [(LoadCall.answer_eq_ok (LoadCall.module?_eq_some.1 hmodule)).1]

theorem nodup_failed (h : corpus.HoldsFirstAnswers resolver calls) :
    (corpus.failed.map fun failure => failure.path.components).Nodup := by
  rw [h.failed]
  refine nodup_keys_filterMap (nodup_keys_firstBy _ calls) fun call failure
    hfailure => ?_
  rw [LoadCall.answer_eq_error (LoadCall.failure?_eq_some.1 hfailure)]

theorem module?_eq_some (h : corpus.HoldsFirstAnswers resolver calls)
    {module : FileModule} :
    corpus.module? path = some module ↔
      ∃ call, firstLoad? calls path = some call ∧
        call.answer resolver = .ok module := by
  rw [module?_eq, find?_key_eq_some h.nodup_modules, h.mem_modules]
  constructor
  · rintro ⟨⟨call, hcall, hanswer⟩, hplace⟩
    rw [(LoadCall.answer_eq_ok hanswer).1] at hplace
    exact ⟨call, firstLoad?_eq_some.2 ⟨hcall, hplace⟩, hanswer⟩
  · rintro ⟨call, hcall, hanswer⟩
    obtain ⟨hfirst, hplace⟩ := firstLoad?_eq_some.1 hcall
    rw [(LoadCall.answer_eq_ok hanswer).1]
    exact ⟨⟨call, hfirst, hanswer⟩, hplace⟩

theorem failure?_eq_some (h : corpus.HoldsFirstAnswers resolver calls)
    {failure : FailedFile} :
    corpus.failure? path = some failure ↔
      ∃ call, firstLoad? calls path = some call ∧
        call.answer resolver = .error failure := by
  rw [failure?_eq, find?_key_eq_some h.nodup_failed, h.mem_failed]
  constructor
  · rintro ⟨⟨call, hcall, hanswer⟩, hplace⟩
    rw [LoadCall.answer_eq_error hanswer] at hplace
    exact ⟨call, firstLoad?_eq_some.2 ⟨hcall, hplace⟩, hanswer⟩
  · rintro ⟨call, hcall, hanswer⟩
    obtain ⟨hfirst, hplace⟩ := firstLoad?_eq_some.1 hcall
    rw [LoadCall.answer_eq_error hanswer]
    exact ⟨⟨call, hfirst, hanswer⟩, hplace⟩

theorem answer?_eq (h : corpus.HoldsFirstAnswers resolver calls) (path : Path) :
    corpus.answer? path =
      (firstLoad? calls path).map (LoadCall.answer resolver) := by
  cases hfirst : firstLoad? calls path with
  | none =>
      have hmodule : corpus.module? path = none := by
        refine Option.eq_none_iff_forall_ne_some.2 fun module hmodule => ?_
        obtain ⟨call, hcall, -⟩ := h.module?_eq_some.1 hmodule
        simp [hfirst] at hcall
      have hfailure : corpus.failure? path = none := by
        refine Option.eq_none_iff_forall_ne_some.2 fun failure hfailure => ?_
        obtain ⟨call, hcall, -⟩ := h.failure?_eq_some.1 hfailure
        simp [hfirst] at hcall
      rw [answer?, hmodule, hfailure]
      rfl
  | some call =>
      cases hanswer : call.answer resolver with
      | ok module =>
          rw [answer?, h.module?_eq_some.2 ⟨call, hfirst, hanswer⟩,
            Option.map_some, hanswer]
      | error failure =>
          have hmodule : corpus.module? path = none := by
            refine Option.eq_none_iff_forall_ne_some.2 fun module hmodule => ?_
            obtain ⟨other, hother, hok⟩ := h.module?_eq_some.1 hmodule
            obtain rfl : call = other :=
              Option.some.inj (hfirst.symm.trans hother)
            simp [hanswer] at hok
          rw [answer?, hmodule, h.failure?_eq_some.2 ⟨call, hfirst, hanswer⟩,
            Option.map_some, Option.map_some, hanswer]

theorem knows_iff (h : corpus.HoldsFirstAnswers resolver calls) :
    corpus.knows path = true ↔ ∃ call ∈ calls, call.path.same path = true := by
  rw [knows_eq, h.answer?_eq, Option.isSome_map, firstLoad?_isSome]

/-- A loaded path has not failed: both answers would come from the first load
that asked for it. -/
theorem not_both (h : corpus.HoldsFirstAnswers resolver calls) (path : Path) :
    ¬((corpus.module? path).isSome = true ∧ corpus.hasFailed path = true) := by
  rintro ⟨hloaded, hfailed⟩
  rw [hasFailed_eq] at hfailed
  obtain ⟨module, hmodule⟩ := Option.isSome_iff_exists.1 hloaded
  obtain ⟨failure, hfailure⟩ := Option.isSome_iff_exists.1 hfailed
  obtain ⟨call, hcall, hok⟩ := h.module?_eq_some.1 hmodule
  obtain ⟨other, hother, herror⟩ := h.failure?_eq_some.1 hfailure
  obtain rfl : call = other := Option.some.inj (hcall.symm.trans hother)
  simp [hok] at herror

private theorem length_add_length
    (h : corpus.HoldsFirstAnswers resolver calls) :
    corpus.modules.length + corpus.failed.length =
      (calls.map fun call => call.path.components).toFinset.card := by
  rw [h.modules.length_eq, h.failed, LoadCall.length_answers, firstLoads,
    length_firstBy]

private theorem resolved_at_first_load
    (h : corpus.HoldsFirstAnswers resolver calls) {module : FileModule}
    (hmodule : module ∈ corpus.modules) :
    ∃ call, firstLoad? calls module.path = some call ∧ call.path = module.path ∧
      ∀ record ∈ module.imports, record.resolved =
        resolver.resolve call.tree record.specifier module.path := by
  obtain ⟨call, hcall, hanswer⟩ := h.mem_modules.1 hmodule
  obtain ⟨hpath, hresolved⟩ := LoadCall.answer_eq_ok hanswer
  rw [hpath]
  exact ⟨call, firstLoad?_eq_some.2 ⟨hcall, rfl⟩, rfl, hresolved⟩

private theorem fresh_of_not_knows {call : LoadCall} {module : FileModule}
    (hunknown : corpus.knows call.path = false)
    (hanswer : call.answer resolver = .ok module) :
    ∀ other ∈ corpus.modules, other.path.same module.path = false := by
  rw [knows, Bool.or_eq_false_iff, Option.isSome_eq_false_iff,
    Option.isNone_iff_eq_none] at hunknown
  rw [(LoadCall.answer_eq_ok hanswer).1]
  simpa using List.find?_eq_none.1 hunknown.2

theorem load (h : corpus.HoldsFirstAnswers resolver calls) (call : LoadCall) :
    (corpus.load call.tree call.path).HoldsFirstAnswers resolver
      (calls ++ [call]) := by
  by_cases hknown : corpus.knows call.path = true
  · rw [load_of_known call.tree hknown]
    have hcalls := firstLoads_concat_of_old (h.knows_iff.1 hknown)
    exact ⟨h.keptResolver, hcalls ▸ h.modules, hcalls ▸ h.failed⟩
  · have hcalls := firstLoads_concat_of_new (h.knows_iff.not.1 hknown)
    rw [Bool.not_eq_true] at hknown
    rw [load_of_unknown hknown, h.keptResolver]
    cases hanswer : call.answer resolver with
    | ok module =>
        have hsome := LoadCall.module?_eq_some.2 hanswer
        refine ⟨rfl, ?_, ?_⟩
        · rw [hcalls, List.filterMap_append, List.filterMap_cons_some hsome,
            List.filterMap_nil]
          have hinserted :=
            insertModule_perm (fresh_of_not_knows hknown hanswer)
          exact (hinserted.trans (h.modules.cons module)).trans
            (List.perm_append_singleton module _).symm
        · rw [hcalls, List.filterMap_append,
            List.filterMap_cons_none (LoadCall.failure?_eq_none hanswer),
            List.filterMap_nil, List.append_nil]
          exact h.failed
    | error failure =>
        have hsome := LoadCall.failure?_eq_some.2 hanswer
        refine ⟨rfl, ?_, ?_⟩
        · rw [hcalls, List.filterMap_append,
            List.filterMap_cons_none (LoadCall.module?_eq_none hanswer),
            List.filterMap_nil, List.append_nil]
          exact h.modules
        · rw [hcalls, List.filterMap_append, List.filterMap_cons_some hsome,
            List.filterMap_nil, ← h.failed]

private theorem answer?_load_of_other
    (h : corpus.HoldsFirstAnswers resolver calls) (tree : FileTree)
    {path other : Path} (hother : path.same other = false) :
    (corpus.load tree path).answer? other = corpus.answer? other := by
  rw [(h.load ⟨tree, path⟩).answer?_eq, h.answer?_eq, firstLoad?,
    List.find?_append]
  simp [firstLoad?, hother]

private theorem answer?_load_self (h : corpus.HoldsFirstAnswers resolver calls)
    (tree : FileTree) (path : Path) :
    (corpus.load tree path).answer? path =
      some (((firstLoad? calls path).getD ⟨tree, path⟩).answer resolver) := by
  rw [(h.load ⟨tree, path⟩).answer?_eq, firstLoad?, List.find?_append,
    ← firstLoad?]
  cases firstLoad? calls path <;> simp [Path.same_refl]

end HoldsFirstAnswers

private theorem loadCalls_concat (corpus : Corpus) (calls : List LoadCall)
    (call : LoadCall) :
    corpus.loadCalls (calls ++ [call]) =
      (corpus.loadCalls calls).load call.tree call.path :=
  List.foldl_concat ..

theorem loadCalls_holdsFirstAnswers (root : Path) (resolver : Resolver)
    (calls : List LoadCall) :
    ((new root resolver).loadCalls calls).HoldsFirstAnswers resolver calls := by
  induction calls using List.reverseRecOn with
  | nil => exact holdsFirstAnswers_new root resolver
  | append_singleton calls call ih =>
      rw [loadCalls_concat]
      exact ih.load call

structure Remembers (resolver : Resolver) (calls : List LoadCall)
    (corpus : Corpus) : Prop where
  neverBoth : ∀ path, ¬((corpus.module? path).isSome = true ∧
    corpus.hasFailed path = true)
  asked : ∀ path, ((corpus.module? path).isSome = true ∨
    corpus.hasFailed path = true) ↔
    ∃ call ∈ calls, call.path.same path = true
  count : corpus.modules.length + corpus.failed.length =
    (calls.map fun call => call.path.components).toFinset.card
  failures :
    corpus.failed = (firstLoads calls).filterMap (LoadCall.failure? resolver)
  failedOnce : corpus.failed.Pairwise fun first second =>
    first.path.same second.path = false
  answers : ∀ path,
    corpus.answer? path = (firstLoad? calls path).map (LoadCall.answer resolver)
  /-- A load gives the answer of the first load of its path, which may be
  itself. -/
  given : ∀ tree path,
    (corpus.load tree path).answer? path =
      some (((firstLoad? calls path).getD ⟨tree, path⟩).answer resolver)
  later : ∀ tree path, (∃ call ∈ calls, call.path.same path = true) →
    corpus.load tree path = corpus
  others : ∀ tree path other, path.same other = false →
    (corpus.load tree path).answer? other = corpus.answer? other
  /-- Imports are resolved in the file system of the first load. -/
  resolved : ∀ module ∈ corpus.modules,
    ∃ call, firstLoad? calls module.path = some call ∧ call.path = module.path ∧
    ∀ record ∈ module.imports,
      record.resolved = resolver.resolve call.tree record.specifier module.path

/--
After any sequence of loads, with any changes of the file system in between, a
corpus holds the answers of the first loads and nothing else.
-/
theorem loads_remember_first_answers (root : Path) (resolver : Resolver)
    (calls : List LoadCall) :
    ((new root resolver).loadCalls calls).Remembers resolver calls := by
  have h := loadCalls_holdsFirstAnswers root resolver calls
  generalize (new root resolver).loadCalls calls = corpus at h
  have hasked (path : Path) : corpus.knows path = true ↔
    ∃ call ∈ calls, call.path.same path = true := h.knows_iff
  constructor
  case neverBoth => exact h.not_both
  case asked =>
    intro path
    rw [← hasked, knows, Bool.or_eq_true, or_comm]
  case count => exact h.length_add_length
  case failures => exact h.failed
  case failedOnce =>
    refine (List.pairwise_map.1 h.nodup_failed).imp fun hne => ?_
    rw [← Bool.not_eq_true, Path.same_iff]
    exact hne
  case answers => exact h.answer?_eq
  case given => exact h.answer?_load_self
  case later =>
    exact fun tree path hpath => load_of_known tree ((hasked path).2 hpath)
  case others =>
    exact fun tree path other hother => h.answer?_load_of_other tree hother
  case resolved => exact fun module hmodule => h.resolved_at_first_load hmodule

end Corpus

end ImportAtlas
