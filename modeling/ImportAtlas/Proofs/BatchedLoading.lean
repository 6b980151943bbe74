import ImportAtlas.Proofs.LoadHistory

/-!
# Loading in batches

The batches of a list are its consecutive stretches of the batch size, the last
one possibly shorter. Loading them one after the other, with or without a pause
after each, is loading the files of the list one by one: the size of the
batches only decides how often progress is told, and how far it has come.
-/

namespace ImportAtlas

namespace Corpus

/-! ## Batches -/

theorem length_drop_le_budget {first path : Path} {budget paths : List Path}
    (h : (path :: paths).length ≤ (first :: budget).length) (count : Nat) :
    (paths.drop count).length ≤ budget.length := by
  simp only [List.length_cons, List.length_drop] at h ⊢
  omega

private theorem flatten_take_piecesWithin {size : Nat}
    {budget paths : List Path} (hbudget : paths.length ≤ budget.length)
    (count : Nat) :
    ((piecesWithin size budget paths).take count).flatten =
      paths.take (count * max size 1) := by
  fun_induction piecesWithin size budget paths generalizing count with
  | case1 paths =>
      have hpaths : paths = [] :=
        List.eq_nil_of_length_eq_zero (Nat.le_zero.1 hbudget)
      simp [hpaths]
  | case2 => simp
  | case3 first budget path paths ih =>
      cases count with
      | zero => simp
      | succ count =>
          have hsize : (count + 1) * max size 1 =
              (size - 1 + count * max size 1) + 1 := by
            rw [Nat.succ_mul]
            omega
          rw [List.take_succ_cons, List.flatten_cons,
            ih (length_drop_le_budget hbudget _), hsize, List.take_succ_cons,
            List.take_add, List.cons_append]

private theorem length_piecesWithin {size : Nat} {budget paths : List Path}
    (hbudget : paths.length ≤ budget.length) :
    (piecesWithin size budget paths).length =
      (paths.length + max size 1 - 1) / max size 1 := by
  have hpositive : 0 < max size 1 := by omega
  have hnone : (0 + max size 1 - 1) / max size 1 = 0 :=
    Nat.div_eq_of_lt (by omega)
  fun_induction piecesWithin size budget paths with
  | case1 paths =>
      have hpaths : paths = [] :=
        List.eq_nil_of_length_eq_zero (Nat.le_zero.1 hbudget)
      rw [hpaths, List.length_nil, List.length_nil, hnone]
  | case2 => rw [List.length_nil, List.length_nil, hnone]
  | case3 first budget path paths ih =>
      have hall : (path :: paths).length + max size 1 - 1 =
          paths.length + max size 1 := by
        rw [List.length_cons]
        omega
      rw [List.length_cons, ih (length_drop_le_budget hbudget _), hall,
        Nat.add_div_right _ hpositive, List.length_drop]
      congr 1
      -- After a batch that is not full nothing is left, and what stood behind
      -- its first file was no full batch.
      by_cases hfull : size - 1 ≤ paths.length
      · congr 1
        omega
      · rw [Nat.div_eq_of_lt (by omega), Nat.div_eq_of_lt (by omega)]

theorem flatten_take_batches (size : Nat) (paths : List Path) (count : Nat) :
    ((batches size paths).take count).flatten =
      paths.take (count * max size 1) :=
  flatten_take_piecesWithin (Nat.le_refl _) count

theorem length_batches (size : Nat) (paths : List Path) :
    (batches size paths).length =
      (paths.length + max size 1 - 1) / max size 1 :=
  length_piecesWithin (Nat.le_refl _)

theorem flatten_batches (size : Nat) (paths : List Path) :
    (batches size paths).flatten = paths := by
  have hall : paths.length ≤ (batches size paths).length * max size 1 := by
    have hrest :=
      Nat.lt_mul_div_succ (paths.length + max size 1 - 1)
        (show 0 < max size 1 by omega)
    rw [Nat.mul_add, Nat.mul_comm, ← length_batches] at hrest
    omega
  have htaken := flatten_take_batches size paths (batches size paths).length
  rwa [List.take_length, List.take_of_length_le hall] at htaken

/-! ## Batch after batch -/

def progressAfter (tree : FileTree) (total : Nat) (corpus : Corpus)
    (batch processed : Nat) (done : List (List Path)) :
    Progress :=
  ⟨batch + done.length, processed + done.flatten.length, total,
    (corpus.loadBatch tree done.flatten).failed.length⟩

theorem loadBatch_append (tree : FileTree) (corpus : Corpus)
    (first second : List Path) :
    corpus.loadBatch tree (first ++ second) =
      (corpus.loadBatch tree first).loadBatch tree second :=
  List.foldl_append

private theorem progressAfter_cons (tree : FileTree) (total : Nat)
    (corpus : Corpus) (batch processed : Nat) (paths : List Path)
    (done : List (List Path)) :
    progressAfter tree total corpus batch processed (paths :: done) =
      progressAfter tree total (corpus.loadBatch tree paths) (batch + 1)
      (processed + paths.length) done := by
  simp only [progressAfter, List.length_cons, List.flatten_cons,
    List.length_append, loadBatch_append]
  congr 1 <;> omega

theorem loadBatches_eq (tree : FileTree) (total : Nat) (corpus : Corpus)
    (batch processed : Nat) (pieces : List (List Path)) :
    loadBatches tree total corpus batch processed pieces =
      (corpus.loadBatch tree pieces.flatten,
        (List.range pieces.length).map fun index =>
          progressAfter tree total corpus batch processed
            (pieces.take (index + 1))) := by
  induction pieces generalizing corpus batch processed with
  | nil => rfl
  | cons paths pieces ih =>
      rw [loadBatches, ih, List.flatten_cons, loadBatch_append,
        List.length_cons, List.range_succ_eq_map, List.map_cons, List.map_map]
      refine congrArg (Prod.mk _) (List.cons_eq_cons.2 ⟨?_, ?_⟩)
      · simp [progressAfter]
      · refine List.map_congr_left fun index _ => ?_
        rw [Function.comp_apply, List.take_succ_cons, progressAfter_cons]

/-! ## Pauses -/

private theorem PausedLoad.pauses_eq (tree : FileTree) (paused : PausedLoad) :
    (((paused.pauses tree).getLast?.getD paused).corpus,
      (paused.pauses tree).map PausedLoad.told) =
      loadBatches tree paused.told.total paused.corpus paused.told.batch
        paused.told.processed paused.rest := by
  fun_induction pauses tree paused with
  | case1 paused hover =>
      unfold resume at hover
      split at hover
      · rename_i hrest
        rw [hrest]
        rfl
      · contradiction
  | case2 paused next hnext ih =>
      unfold resume at hnext
      split at hnext
      · contradiction
      · rename_i paths rest hrest
        obtain rfl := Option.some.inj hnext
        rw [hrest, loadBatches, ← ih, List.getLast?_cons, Option.getD_some,
          List.map_cons]

private theorem loadAllPausing_eq (tree : FileTree) (corpus : Corpus)
    (paths : List Path) (size : Nat) :
    corpus.loadAllPausing tree paths size = corpus.loadAll tree paths size :=
  PausedLoad.pauses_eq tree (.start corpus paths size)

/-! ## Failures -/

/-- How many of the files cannot be loaded.  A path that was asked for before
is not asked for again, even in another spelling. -/
def failuresAmong (tree : FileTree) (paths : List Path) : Nat :=
  (firstBy Path.components paths).countP fun path =>
    !(analyzeFile tree path).isOk

theorem firstLoads_map (tree : FileTree) (paths : List Path) :
    firstLoads (paths.map (LoadCall.mk tree)) =
      (firstBy Path.components paths).map (LoadCall.mk tree) := by
  induction paths with
  | nil => rfl
  | cons path paths ih =>
      rw [firstLoads] at ih
      rw [List.map_cons, firstLoads, firstBy, ih, firstBy, List.map_cons,
        List.filter_map]
      rfl

private theorem isSome_failure? (resolver : Resolver) (call : LoadCall) :
    (call.failure? resolver).isSome =
      !(analyzeFile call.tree call.path).isOk := by
  unfold LoadCall.failure? LoadCall.answer
  cases analyzeFile call.tree call.path <;> rfl

private theorem length_failed_loadBatch (tree : FileTree) (root : Path)
    (resolver : Resolver) (paths : List Path) :
    ((new root resolver).loadBatch tree paths).failed.length =
      failuresAmong tree paths := by
  have hcalls : (new root resolver).loadBatch tree paths =
      (new root resolver).loadCalls (paths.map (LoadCall.mk tree)) := by
    rw [loadBatch, loadCalls, List.foldl_map]
  have hholds :=
    loadCalls_holdsFirstAnswers root resolver (paths.map (LoadCall.mk tree))
  rw [hcalls, hholds.failed, firstLoads_map, List.length_filterMap_eq_countP,
    List.countP_map, failuresAmong]
  congr 1
  funext path
  exact isSome_failure? resolver ⟨tree, path⟩

/-- In which batches files are loaded, and whether with pauses, does not
matter: a new corpus becomes what loading them one by one makes of it.
Progress is told after each batch. -/
theorem batching_is_invisible (tree : FileTree) (root : Path)
    (resolver : Resolver) (paths : List Path) (size : Nat) :
    (new root resolver).loadAllPausing tree paths size =
      (new root resolver).loadAll tree paths size ∧
      (∀ other, ((new root resolver).loadAll tree paths other).1 =
        ((new root resolver).loadAll tree paths size).1) ∧
      ((new root resolver).loadAll tree paths size).1 =
        paths.foldl (load tree) (new root resolver) ∧
      ((new root resolver).loadAll tree paths size).2 =
        (List.range ((paths.length + max size 1 - 1) / max size 1)).map
          fun index =>
          let processed := min ((index + 1) * max size 1) paths.length
          { batch := index + 1
            processed := processed
            total := paths.length
            failed := failuresAmong tree (paths.take processed) } := by
  have hloaded (other : Nat) :
      ((new root resolver).loadAll tree paths other).1 =
        paths.foldl (load tree) (new root resolver) := by
    rw [loadAll, loadBatches_eq, flatten_batches]
    rfl
  refine ⟨loadAllPausing_eq .., fun other =>
    (hloaded other).trans (hloaded size).symm, hloaded size, ?_⟩
  rw [loadAll, loadBatches_eq, length_batches]
  refine List.map_congr_left fun index hindex => ?_
  have hdone : ((batches size paths).take (index + 1)).length = index + 1 := by
    rw [List.length_take, length_batches]
    exact Nat.min_eq_left (List.mem_range.1 hindex)
  rw [progressAfter, hdone, flatten_take_batches, length_failed_loadBatch,
    Nat.zero_add, Nat.zero_add, List.length_take, List.take_eq_take_min]

end Corpus

end ImportAtlas
