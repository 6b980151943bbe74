import ImportAtlas.Inquiry.Unused
import ImportAtlas.Proofs.LoadedCorpus

/-!
# What index files pass on

An index file passes on the files that it exports again, and through other
index files of the corpus also theirs.  The search for them looks into every
index file once.  It finds exactly the ends of the chains of forwarding
imports, provided that no two paths mean the same file.
-/

namespace ImportAtlas

/-! ## Chains of index files -/

def FileModule.ForwardsFile (module : FileModule) (file : Path) : Prop :=
  ∃ record ∈ module.imports, module.forwards record = true ∧
    record.ResolvesTo file

/-- Whether forwarding imports lead from a module to a file, with index files
of the corpus between them. -/
inductive IndexChain (corpus : Corpus) : FileModule → Path → Prop
  | last {module : FileModule} {file : Path} (h : module.ForwardsFile file) :
      IndexChain corpus module file
  | step {module index : FileModule} {file : Path}
      (h : module.ForwardsFile index.path) (hmember : index ∈ corpus.modules)
      (hindex : isIndexFile index.path = true)
      (hrest : IndexChain corpus index file) : IndexChain corpus module file

variable {tree : FileTree} {corpus : Corpus}

theorem IndexChain.trans {module index : FileModule} {file : Path}
    (h : IndexChain corpus module index.path)
    (hmember : index ∈ corpus.modules) (hindex : isIndexFile index.path = true)
    (hrest : IndexChain corpus index file) :
    IndexChain corpus module file := by
  generalize hpath : index.path = middle at h
  induction h with
  | last h => exact .step (hpath ▸ h) hmember hindex hrest
  | step h hmember' hindex' _ ih => exact .step h hmember' hindex' (ih hpath)

private theorem IndexChain.extend {module index : FileModule} {file : Path}
    (h : IndexChain corpus module index.path) (hmember : index ∈ corpus.modules)
    (hindex : isIndexFile index.path = true) (hlast : index.ForwardsFile file) :
    IndexChain corpus module file :=
  h.trans hmember hindex (.last hlast)

/-! ## Paths that a corpus knows -/

namespace Corpus

def knownPaths (corpus : Corpus) : List Path :=
  corpus.modules.flatMap fun module =>
    module.path :: module.imports.filterMap fun record =>
      record.resolved.bind Target.file?

/-- No two different paths that a corpus knows mean the same file. -/
def DistinctFiles (corpus : Corpus) : Prop :=
  ∀ first ∈ corpus.knownPaths, ∀ second ∈ corpus.knownPaths,
    first.key = second.key → first.same second = true

theorem path_mem_knownPaths {module : FileModule}
    (hmember : module ∈ corpus.modules) :
    module.path ∈ corpus.knownPaths :=
  List.mem_flatMap.2 ⟨module, hmember, List.mem_cons_self⟩

private theorem target_mem_knownPaths {module : FileModule}
    (hmember : module ∈ corpus.modules) {record : ImportRecord}
    (hrecord : record ∈ module.imports) {path : Path}
    (hpath : record.resolved.bind Target.file? = some path) :
    path ∈ corpus.knownPaths :=
  List.mem_flatMap.2 ⟨module, hmember,
    List.mem_cons_of_mem _ (List.mem_filterMap.2 ⟨record, hrecord, hpath⟩)⟩

theorem DistinctFiles.distinctKeys (h : corpus.DistinctFiles)
    (hordered : corpus.Ordered) :
    corpus.DistinctKeys := by
  refine List.pairwise_map.2 (List.Pairwise.imp_of_mem ?_ hordered)
  intro first second hfirst hsecond hbefore hkey
  exact hbefore.not_same
    (h _ (path_mem_knownPaths hfirst) _ (path_mem_knownPaths hsecond) hkey)

end Corpus

private theorem isIndexFile_congr {first second : Path}
    (h : first.same second = true) :
    isIndexFile first = isIndexFile second := by
  simp only [isIndexFile, Path.fileStem?, Path.fileName?, Path.same_iff.1 h]

theorem mem_of_moduleByKey? {modules : List FileModule} {key : String}
    {module : FileModule} (h : moduleByKey? modules key = some module) :
    module ∈ modules ∧ module.path.key = key :=
  ⟨List.mem_reverse.1 (List.mem_of_find?_eq_some h),
    by simpa using List.find?_some h⟩

private theorem Corpus.DistinctKeys.moduleByKey?_eq
    (hkeys : corpus.DistinctKeys) {module : FileModule}
    (hmember : module ∈ corpus.modules) :
    moduleByKey? corpus.modules module.path.key = some module := by
  cases hfound : moduleByKey? corpus.modules module.path.key with
  | none =>
      have hnone :=
        List.find?_eq_none.1 hfound module (List.mem_reverse.2 hmember)
      exact absurd (beq_self_eq_true _) hnone
  | some found =>
      obtain ⟨hfoundMember, hkey⟩ := mem_of_moduleByKey? hfound
      rw [hkeys.eq_of_key hfoundMember hmember hkey]

/-! ## The files of one module -/

theorem ImportRecord.resolvesTo_iff {record : ImportRecord} {file : Path} :
    record.ResolvesTo file ↔
      ∃ path, record.resolved.bind Target.file? = some path ∧
        path.key = file.key := by
  unfold ResolvesTo
  cases record.resolved with
  | none => simp
  | some found =>
    cases found <;> simp [Target.isFile, Target.file?, Path.sameFile_iff]

theorem mem_passedOnFiles (hresolved : corpus.ResolvedIn tree)
    {module : FileModule} (hmember : module ∈ corpus.modules) {path : Path} :
    path ∈ passedOnFiles tree corpus.resolver module ↔
      ∃ record ∈ module.imports, module.forwards record = true ∧
        record.resolved.bind Target.file? = some path := by
  simp only [passedOnFiles, List.mem_filterMap, List.mem_filter]
  constructor
  · rintro ⟨record, ⟨hrecord, hforwards⟩, hpath⟩
    rw [hresolved.targetOf_eq hmember hrecord] at hpath
    exact ⟨record, hrecord, hforwards, hpath⟩
  · rintro ⟨record, hrecord, hforwards, hpath⟩
    refine ⟨record, ⟨hrecord, hforwards⟩, ?_⟩
    rw [hresolved.targetOf_eq hmember hrecord]
    exact hpath

theorem forwardsFile_iff (hresolved : corpus.ResolvedIn tree)
    {module : FileModule} (hmember : module ∈ corpus.modules) {file : Path} :
    module.ForwardsFile file ↔
      ∃ path ∈ passedOnFiles tree corpus.resolver module,
        path.key = file.key := by
  simp only [FileModule.ForwardsFile, ImportRecord.resolvesTo_iff,
    mem_passedOnFiles hresolved hmember]
  constructor
  · rintro ⟨record, hrecord, hforwards, path, hpath, hkey⟩
    exact ⟨path, ⟨record, hrecord, hforwards, hpath⟩, hkey⟩
  · rintro ⟨path, ⟨record, hrecord, hforwards, hpath⟩, hkey⟩
    exact ⟨record, hrecord, hforwards, path, hpath, hkey⟩

/-! ## Noting files -/

namespace PassedOn

variable {modules : List FileModule} {state : PassedOn} {path : Path}

theorem note_of_new (hindex : isIndexFile path = true)
    (hnew : path.key ∉ state.seen) :
    note modules state path =
      ⟨path.key :: state.found, path.key :: state.seen,
        (moduleByKey? modules path.key).toList ++ state.pending⟩ := by
  simp [note, hindex, hnew]

theorem note_of_known (h : isIndexFile path = true → path.key ∈ state.seen) :
    note modules state path =
      { state with found := path.key :: state.found } := by
  have hknown :
      ¬(isIndexFile path && !state.seen.contains path.key) = true := by
    simpa using h
  simp only [note, if_neg hknown]

private theorem mem_found_note {key : String} :
    key ∈ (note modules state path).found ↔
      key ∈ state.found ∨ path.key = key := by
  by_cases h : isIndexFile path = true → path.key ∈ state.seen
  · rw [note_of_known h, List.mem_cons, or_comm, eq_comm]
  · rw [Classical.not_imp] at h
    rw [note_of_new h.1 h.2, List.mem_cons, or_comm, eq_comm]

theorem mem_seen_note {key : String} :
    key ∈ (note modules state path).seen ↔
      key ∈ state.seen ∨ isIndexFile path = true ∧ path.key = key := by
  by_cases h : isIndexFile path = true → path.key ∈ state.seen
  · rw [note_of_known h]
    exact ⟨.inl, fun hseen => hseen.elim id fun ⟨hindex, hkey⟩ =>
      hkey ▸ h hindex⟩
  · rw [Classical.not_imp] at h
    simp only [note_of_new h.1 h.2, List.mem_cons, h.1, true_and]
    rw [or_comm, eq_comm]

private theorem mem_pending_note {module : FileModule} :
    module ∈ (note modules state path).pending ↔
      module ∈ state.pending ∨
        isIndexFile path = true ∧ path.key ∉ state.seen ∧
        moduleByKey? modules path.key = some module := by
  by_cases h : isIndexFile path = true → path.key ∈ state.seen
  · rw [note_of_known h]
    exact ⟨.inl, fun hpending => hpending.elim id fun ⟨hindex, hnew, _⟩ =>
      absurd (h hindex) hnew⟩
  · rw [Classical.not_imp] at h
    simp only [note_of_new h.1 h.2, List.mem_append, Option.mem_toList, h.1,
      h.2, not_false_eq_true, true_and]
    exact or_comm

structure Noted (modules : List FileModule) (paths : List Path)
    (before after : PassedOn) : Prop where
  found : ∀ key, key ∈ after.found ↔
    key ∈ before.found ∨ ∃ path ∈ paths, path.key = key
  seen : ∀ key, key ∈ after.seen ↔
    key ∈ before.seen ∨ ∃ path ∈ paths, isIndexFile path = true ∧ path.key = key
  pending : ∀ module, module ∈ after.pending ↔
    module ∈ before.pending ∨
      ∃ path ∈ paths, isIndexFile path = true ∧ path.key ∉ before.seen ∧
        moduleByKey? modules path.key = some module

theorem Noted.cons {paths : List Path} {after : PassedOn}
    (h : Noted modules paths (note modules state path) after) :
    Noted modules (path :: paths) state after := by
  constructor
  · intro key
    rw [h.found, mem_found_note, or_assoc, List.exists_mem_cons_iff]
  · intro key
    rw [h.seen, mem_seen_note, or_assoc, List.exists_mem_cons_iff]
  · intro module
    rw [h.pending, mem_pending_note, or_assoc, List.exists_mem_cons_iff]
    refine or_congr_right ⟨?_, ?_⟩
    · rintro (hfirst | ⟨other, hother, hindex, hunseen, hmodule⟩)
      · exact .inl hfirst
      · exact .inr ⟨other, hother, hindex, fun hseen =>
          hunseen (mem_seen_note.2 (.inl hseen)), hmodule⟩
    · rintro (hfirst | ⟨other, hother, hindex, hunseen, hmodule⟩)
      · exact .inl hfirst
      · by_cases hsame : isIndexFile path = true ∧ path.key = other.key
        · -- The module of a file that was noted just before is pending already.
          rw [← hsame.2] at hunseen hmodule
          exact .inl ⟨hsame.1, hunseen, hmodule⟩
        · exact .inr ⟨other, hother, hindex, fun hseen =>
            (mem_seen_note.1 hseen).elim hunseen hsame, hmodule⟩

theorem noted_foldl (modules : List FileModule) (state : PassedOn)
    (paths : List Path) :
    Noted modules paths state (paths.foldl (note modules) state) := by
  induction paths generalizing state with
  | nil => constructor <;> simp
  | cons path paths ih => exact (ih (note modules state path)).cons

/-! ## The search ends -/

def budget (corpus : Corpus) (state : PassedOn) : Nat :=
  state.pending.length + (corpus.unmarked state.seen).length

private theorem budget_note_le (corpus : Corpus) (state : PassedOn)
    (path : Path) :
    (note corpus.modules state path).budget corpus ≤ state.budget corpus := by
  by_cases h : isIndexFile path = true → path.key ∈ state.seen
  · rw [note_of_known h]
    exact Nat.le_refl _
  · rw [Classical.not_imp] at h
    rw [note_of_new h.1 h.2]
    cases hmodule : moduleByKey? corpus.modules path.key with
    | none =>
        have hless := corpus.length_unmarked_cons_le path.key state.seen
        simpa [budget] using hless
    | some module =>
        obtain ⟨hmember, hkey⟩ := mem_of_moduleByKey? hmodule
        have hless :=
          Corpus.length_unmarked_cons_lt hmember (by rw [hkey]; exact h.2)
        rw [hkey] at hless
        simp only [budget, Option.toList_some, List.singleton_append,
          List.length_cons]
        omega

private theorem budget_foldl_le (corpus : Corpus) (state : PassedOn)
    (paths : List Path) :
    (paths.foldl (note corpus.modules) state).budget corpus ≤
      state.budget corpus := by
  induction paths generalizing state with
  | nil => exact Nat.le_refl _
  | cons path paths ih =>
    exact Nat.le_trans (ih _) (budget_note_le corpus state path)

theorem run_pending_eq_nil (tree : FileTree) {corpus : Corpus}
    {state : PassedOn} {steps : Nat} (h : state.budget corpus ≤ steps) :
    (state.run tree corpus.resolver corpus.modules steps).pending = [] := by
  induction steps generalizing state with
  | zero =>
    exact List.length_eq_zero_iff.1 (by unfold budget at h; rw [run]; omega)
  | succ steps ih =>
      cases hpending : state.pending with
      | nil => simp only [run, hpending]
      | cons module pending =>
          have hless := budget_foldl_le corpus { state with pending := pending }
            (passedOnFiles tree corpus.resolver module)
          have hpopped : ({ state with pending := pending } : PassedOn).budget
              corpus + 1 = state.budget corpus := by
            simp only [budget, hpending, List.length_cons]
            omega
          simp only [run, hpending]
          exact ih (by omega)

theorem run_invariant {tree : FileTree} {resolver : Resolver}
    {p : PassedOn → Prop}
    (hstep : ∀ (state : PassedOn) (module : FileModule)
      (pending : List FileModule), p state →
      state.pending = module :: pending →
        p ((passedOnFiles tree resolver module).foldl (note modules)
          { state with pending := pending }))
    (h : p state) (steps : Nat) :
    p (state.run tree resolver modules steps) := by
  induction steps generalizing state with
  | zero => exact h
  | succ steps ih =>
      cases hpending : state.pending with
      | nil =>
          simp only [run, hpending]
          exact h
      | cons module pending =>
          simp only [run, hpending]
          exact ih (hstep state module pending h hpending)

/-! ## What the search finds -/

structure Explored (tree : FileTree) (corpus : Corpus) (start : FileModule)
    (state : PassedOn) : Prop where
  pending : ∀ module ∈ state.pending, module ∈ corpus.modules ∧
    (module = start ∨ isIndexFile module.path = true ∧
      IndexChain corpus start module.path)
  found : ∀ key ∈ state.found, ∃ file, file.key = key ∧
    IndexChain corpus start file
  start : start.path.key ∈ state.seen
  marked : ∀ module ∈ corpus.modules, isIndexFile module.path = true →
    module.path.key ∈ state.found → module.path.key ∈ state.seen
  done : ∀ module ∈ corpus.modules, module.path.key ∈ state.seen →
    module ∈ state.pending ∨
    ∀ path ∈ passedOnFiles tree corpus.resolver module, path.key ∈ state.found

theorem isIndexFile_of_key (hresolved : corpus.ResolvedIn tree)
    (hdistinct : corpus.DistinctFiles) {module other : FileModule}
    (hmember : module ∈ corpus.modules) (hother : other ∈ corpus.modules)
    (hpath : path ∈ passedOnFiles tree corpus.resolver module)
    (hkey : other.path.key = path.key) :
    isIndexFile other.path = isIndexFile path := by
  obtain ⟨record, hrecord, -, hfound⟩ :=
    (mem_passedOnFiles hresolved hmember).1 hpath
  exact isIndexFile_congr
    (hdistinct _ (Corpus.path_mem_knownPaths hother)
      _ (Corpus.target_mem_knownPaths hmember hrecord hfound) hkey)

theorem Explored.chain {start module : FileModule}
    (h : Explored tree corpus start state) (hmodule : module ∈ state.pending)
    {file : Path} (hfile : module.ForwardsFile file) :
    IndexChain corpus start file := by
  obtain ⟨hmember, rfl | ⟨hindex, hchain⟩⟩ := h.pending module hmodule
  · exact .last hfile
  · exact hchain.extend hmember hindex hfile

theorem Explored.step (hloaded : corpus.Loaded tree)
    (hdistinct : corpus.DistinctFiles) {start module : FileModule}
    {pending : List FileModule} (h : Explored tree corpus start state)
    (hpending : state.pending = module :: pending) :
    Explored tree corpus start
      ((passedOnFiles tree corpus.resolver module).foldl (note corpus.modules)
        { state with pending := pending }) := by
  have hnoted := noted_foldl corpus.modules { state with pending := pending }
    (passedOnFiles tree corpus.resolver module)
  generalize (passedOnFiles tree corpus.resolver module).foldl
    (note corpus.modules) { state with pending := pending } = after at hnoted ⊢
  have hhead : module ∈ state.pending := by
    rw [hpending]; exact List.mem_cons_self
  have hmember := (h.pending module hhead).1
  have hforwards {file : Path} (hpath : ∃ path ∈ passedOnFiles tree
      corpus.resolver module, path.key = file.key) :
      module.ForwardsFile file :=
        (forwardsFile_iff hloaded.resolved hmember).2 hpath
  constructor
  case pending =>
    intro other hother
    rcases (hnoted.pending other).1 hother
      with hother | ⟨path, hpath, hindex, -, hfound⟩
    · exact h.pending other
        (by rw [hpending]; exact List.mem_cons_of_mem module hother)
    · obtain ⟨hotherMember, hkey⟩ := mem_of_moduleByKey? hfound
      rw [← isIndexFile_of_key hloaded.resolved hdistinct hmember hotherMember
        hpath hkey] at hindex
      exact ⟨hotherMember,
        .inr ⟨hindex, h.chain hhead (hforwards ⟨path, hpath, hkey.symm⟩)⟩⟩
  case found =>
    intro key hkey
    rcases (hnoted.found key).1 hkey with hkey | ⟨path, hpath, rfl⟩
    · exact h.found key hkey
    · exact ⟨path, rfl, h.chain hhead (hforwards ⟨path, hpath, rfl⟩)⟩
  case start => exact (hnoted.seen _).2 (.inl h.start)
  case marked =>
    intro other hother hindex hfound
    rcases (hnoted.found _).1 hfound with hfound | ⟨path, hpath, hkey⟩
    · exact (hnoted.seen _).2 (.inl (h.marked other hother hindex hfound))
    · rw [isIndexFile_of_key hloaded.resolved hdistinct hmember hother hpath
        hkey.symm] at hindex
      exact (hnoted.seen _).2 (.inr ⟨path, hpath, hindex, hkey⟩)
  case done =>
    intro other hother hseen
    by_cases hbefore : other.path.key ∈ state.seen
    · rcases h.done other hother hbefore with hwaiting | hdone
      · rw [hpending] at hwaiting
        rcases List.mem_cons.1 hwaiting with rfl | hwaiting
        · exact .inr fun path hpath =>
            (hnoted.found _).2 (.inr ⟨path, hpath, rfl⟩)
        · exact .inl ((hnoted.pending other).2 (.inl hwaiting))
      · exact .inr fun path hpath =>
          (hnoted.found _).2 (.inl (hdone path hpath))
    · -- A module that is seen only now was put among the pending ones with its
      -- file.
      obtain ⟨path, hpath, hindex, hkey⟩ :=
        ((hnoted.seen _).1 hseen).resolve_left hbefore
      have hfound :=
        (hdistinct.distinctKeys hloaded.ordered).moduleByKey?_eq hother
      rw [← hkey] at hbefore hfound
      exact .inl
        ((hnoted.pending other).2 (.inr ⟨path, hpath, hindex, hbefore, hfound⟩))

theorem Explored.run (hloaded : corpus.Loaded tree)
    (hdistinct : corpus.DistinctFiles) {start : FileModule}
    (h : Explored tree corpus start state) (steps : Nat) :
    Explored tree corpus start
      (state.run tree corpus.resolver corpus.modules steps) :=
  run_invariant (fun _ _ _ hstate hpending =>
    hstate.step hloaded hdistinct hpending) h steps

private theorem explored_start (tree : FileTree) (hkeys : corpus.DistinctKeys)
    {start : FileModule} (hmember : start ∈ corpus.modules) :
    Explored tree corpus start ⟨[], [start.path.key], [start]⟩ where
  pending module hmodule := by
    obtain rfl := List.mem_singleton.1 hmodule
    exact ⟨hmember, .inl rfl⟩
  found key hkey := absurd hkey List.not_mem_nil
  start := List.mem_singleton.2 rfl
  marked module _ _ hfound := absurd hfound List.not_mem_nil
  done module hmodule hseen := by
    obtain rfl := hkeys.eq_of_key hmodule hmember (List.mem_singleton.1 hseen)
    exact .inl (List.mem_singleton.2 rfl)

private theorem Explored.key_mem_found (hresolved : corpus.ResolvedIn tree)
    {start module : FileModule} (h : Explored tree corpus start state)
    (hended : state.pending = []) {file : Path}
    (hchain : IndexChain corpus module file) (hmember : module ∈ corpus.modules)
    (hseen : module.path.key ∈ state.seen) : file.key ∈ state.found := by
  have hfound {module : FileModule} {file : Path}
      (hmember : module ∈ corpus.modules) (hseen : module.path.key ∈ state.seen)
      (hfile : module.ForwardsFile file) : file.key ∈ state.found := by
    obtain ⟨path, hpath, hkey⟩ := (forwardsFile_iff hresolved hmember).1 hfile
    rw [← hkey]
    exact (h.done module hmember hseen).resolve_left
      (by simp [hended]) path hpath
  induction hchain with
  | last hfile => exact hfound hmember hseen hfile
  | step hfile hindexMember hindex _ ih =>
      exact ih hindexMember
        (h.marked _ hindexMember hindex (hfound hmember hseen hfile))

end PassedOn

theorem IndexChain.congr {module : FileModule} {first second : Path}
    (h : IndexChain corpus module first) (hkey : first.key = second.key) :
    IndexChain corpus module second := by
  induction h with
  | last hfile =>
      obtain ⟨record, hrecord, hforwards, found, hfound, hfile⟩ := hfile
      exact .last ⟨record, hrecord, hforwards, found, hfound,
        by rw [← Target.isFile_congr hkey]; exact hfile⟩
  | step hfile hmember hindex _ ih => exact .step hfile hmember hindex (ih hkey)

/-- The search finds the ends of the chains of index files, other than its
start. -/
theorem key_mem_passedOnKeys (hloaded : corpus.Loaded tree)
    (hdistinct : corpus.DistinctFiles) {index : FileModule}
    (hmember : index ∈ corpus.modules) {file : Path} :
    file.key ∈ passedOnKeys tree corpus index ↔
      file.key ≠ index.path.key ∧ IndexChain corpus index file := by
  have hkeys := hdistinct.distinctKeys hloaded.ordered
  have hbudget : (⟨[], [index.path.key], [index]⟩ : PassedOn).budget corpus ≤
      corpus.modules.length + 1 := by
    have hless : (corpus.unmarked [index.path.key]).length ≤
      corpus.modules.length := List.length_filter_le _ _
    simp only [PassedOn.budget, List.length_singleton]
    omega
  have hexplored := (PassedOn.explored_start tree hkeys hmember).run
    hloaded hdistinct (corpus.modules.length + 1)
  have hended := PassedOn.run_pending_eq_nil tree hbudget
  simp only [passedOnKeys, List.mem_filter, bne_iff_ne]
  rw [and_comm]
  refine and_congr_right fun _ => ⟨?_, ?_⟩
  · intro hfound
    obtain ⟨other, hkey, hchain⟩ := hexplored.found _ hfound
    exact hchain.congr hkey
  · intro hchain
    exact hexplored.key_mem_found hloaded.resolved hended hchain hmember
      hexplored.start

end ImportAtlas
