import ImportAtlas.Proofs.BarrelChain
import Mathlib.Data.List.Nodup

/-!
# First arrivals

The walk through barrels takes pending files in the order in which they were
found, so it proceeds in rounds: the first round holds the barrels for the
target itself, and every later round the barrels for those of the round before
it.  A barrel is followed once, with the names of its first arrival.  What a
later chain brings to it is not passed on any more.
-/

namespace ImportAtlas

/-! ## Rounds -/

namespace Carrier

def arrivals (tree : FileTree) (corpus : Corpus) (styles : StyleFilter)
    (carrier : Carrier) : List Carrier :=
  corpus.modules.filterMap fun module =>
    if module.path.sameFile carrier.barrel ||
      (carrier.uses tree corpus.resolver styles module).isEmpty then none
    else module.carrier? tree corpus.resolver carrier.barrel
      (some carrier.names)

def keys (carriers : List Carrier) : List String :=
  carriers.map fun carrier => carrier.barrel.key

def fresh (known : List String) : List Carrier → List Carrier
  | [] => []
  | carrier :: carriers =>
    if known.contains carrier.barrel.key then fresh known carriers
    else carrier :: fresh (carrier.barrel.key :: known) carriers

/-- All carriers that some rounds reach, and those of the last one. -/
def rounds (tree : FileTree) (corpus : Corpus) (styles : StyleFilter)
    (start : List Carrier) :
    Nat → List Carrier × List Carrier
  | 0 => (fresh [] start, fresh [] start)
  | count + 1 =>
    let (known, last) := rounds tree corpus styles start count
    let next := fresh (keys known) (last.flatMap (arrivals tree corpus styles))
    (known ++ next, next)

end Carrier

def firstCarriers (tree : FileTree) (corpus : Corpus) (target : Path) :
    List Carrier :=
  corpus.modules.filterMap
    (FileModule.carrier? tree corpus.resolver target none)

def reachedBarrels (tree : FileTree) (corpus : Corpus) (styles : StyleFilter)
    (target : Path) (count : Nat) :
    List Carrier :=
  (Carrier.rounds tree corpus styles (firstCarriers tree corpus target) count).1

/-- Whether the names are those with which the walk first reaches the barrel. -/
def FirstArrival (tree : FileTree) (corpus : Corpus) (styles : StyleFilter)
    (target : Path) (barrel : Path) (names : NameSet) : Prop :=
  ∃ count, ⟨barrel, names⟩ ∈ reachedBarrels tree corpus styles target count

namespace Carrier

theorem fresh_subset (known : List String) (carriers : List Carrier) :
    fresh known carriers ⊆ carriers := by
  induction carriers generalizing known with
  | nil => exact List.Subset.refl _
  | cons carrier carriers ih =>
      rw [fresh]
      split
      · exact List.subset_cons_of_subset carrier (ih known)
      · exact List.cons_subset_cons carrier (ih _)

private theorem fresh_congr {known known' : List String}
    (h : ∀ key, key ∈ known ↔ key ∈ known') (carriers : List Carrier) :
    fresh known carriers = fresh known' carriers := by
  induction carriers generalizing known known' with
  | nil => rfl
  | cons carrier carriers ih =>
      have hcontains : known.contains carrier.barrel.key =
          known'.contains carrier.barrel.key := by
        simp [h]
      simp only [fresh, hcontains]
      split
      · exact ih h
      · rw [ih]
        intro key
        simp [h]

private theorem fresh_of_nodup {known : List String} {carriers : List Carrier}
    (h : (keys carriers ++ known).Nodup) : fresh known carriers = carriers := by
  induction carriers generalizing known with
  | nil => rfl
  | cons carrier carriers ih =>
      simp only [keys, List.map_cons, List.cons_append, List.nodup_cons,
        List.mem_append, not_or] at h
      have hrest : (keys carriers ++ carrier.barrel.key :: known).Nodup :=
        List.nodup_middle.2 (List.nodup_cons.2 ⟨by simpa [keys] using h.1, h.2⟩)
      rw [fresh, if_neg (by simpa using h.1.2), ih hrest]

private theorem known_subset_of_le {tree : FileTree} {corpus : Corpus}
    {styles : StyleFilter} {start : List Carrier} {first second : Nat}
    (h : first ≤ second) :
    (rounds tree corpus styles start first).1 ⊆
      (rounds tree corpus styles start second).1 := by
  induction h with
  | refl => exact List.Subset.refl _
  | step _ ih => exact List.Subset.trans ih (List.subset_append_left _ _)

theorem last_subset_known {tree : FileTree} {corpus : Corpus}
    {styles : StyleFilter} {start : List Carrier}
    (count : Nat) :
    (rounds tree corpus styles start count).2 ⊆
      (rounds tree corpus styles start count).1 := by
  cases count with
  | zero => exact List.Subset.refl _
  | succ count => exact List.subset_append_right _ _

end Carrier

/-! ## Chains of the rounds -/

section Chains

variable {tree : FileTree} {corpus : Corpus} {styles : StyleFilter}
    {target : Path}

theorem FileModule.carrier?_eq_some {resolver : Resolver} {module : FileModule}
    {via : Path} {carried : Carried} {carrier : Carrier} :
    module.carrier? tree resolver via carried = some carrier ↔
      (forwardedNames tree resolver module via carried).isEmpty = false ∧
        carrier =
          ⟨module.path, forwardedNames tree resolver module via carried⟩ := by
  rw [FileModule.carrier?, Option.ite_none_left_eq_some, Option.some.injEq,
    Bool.not_eq_true, @eq_comm Carrier]

def Carrier.Chained (tree : FileTree) (corpus : Corpus) (target : Path)
    (carrier : Carrier) : Prop :=
  ∃ barrel, BarrelChain tree corpus target barrel carrier.names ∧
    barrel.path = carrier.barrel

private theorem chained_of_mem_firstCarriers {carrier : Carrier}
    (h : carrier ∈ firstCarriers tree corpus target) :
    carrier.Chained tree corpus target := by
  obtain ⟨barrel, hmember, hcarrier⟩ := List.mem_filterMap.1 h
  obtain ⟨hnames, rfl⟩ := FileModule.carrier?_eq_some.1 hcarrier
  exact ⟨barrel, .first hmember hnames, rfl⟩

private theorem Carrier.Chained.of_mem_arrivals {carrier next : Carrier}
    (h : carrier.Chained tree corpus target)
    (hnext : next ∈ carrier.arrivals tree corpus styles) :
    next.Chained tree corpus target := by
  obtain ⟨inner, hinner, hpath⟩ := h
  obtain ⟨barrel, hmember, hcarrier⟩ := List.mem_filterMap.1 hnext
  rw [Option.ite_none_left_eq_some, ← hpath] at hcarrier
  obtain ⟨hnames, rfl⟩ := FileModule.carrier?_eq_some.1 hcarrier.2
  exact ⟨barrel, .next hinner hmember hnames, rfl⟩

theorem chained_of_mem_reachedBarrels (count : Nat) :
    ∀ carrier ∈ reachedBarrels tree corpus styles target count,
      carrier.Chained tree corpus target := by
  unfold reachedBarrels
  induction count with
  | zero =>
    exact fun carrier hcarrier =>
      chained_of_mem_firstCarriers (Carrier.fresh_subset _ _ hcarrier)
  | succ count ih =>
      intro carrier hcarrier
      rcases List.mem_append.1 hcarrier with hknown | hnext
      · exact ih carrier hknown
      · obtain ⟨last, hlast, harrival⟩ :=
          List.mem_flatMap.1 (Carrier.fresh_subset _ _ hnext)
        exact (ih last (Carrier.last_subset_known count hlast)).of_mem_arrivals
          harrival

private theorem nodup_keys_firstCarriers (hkeys : corpus.DistinctKeys) :
    (Carrier.keys (firstCarriers tree corpus target)).Nodup := by
  refine hkeys.nodup_filterMap ?_
  intro module carrier hcarrier
  rw [(FileModule.carrier?_eq_some.1 hcarrier).2]

theorem FirstArrival.of_first (hkeys : corpus.DistinctKeys)
    {barrel : FileModule} (hmember : barrel ∈ corpus.modules)
    (hnames : (forwardedNames tree corpus.resolver barrel target none).isEmpty =
      false) :
    FirstArrival tree corpus styles target barrel.path
      (forwardedNames tree corpus.resolver barrel target none) := by
  refine ⟨0, ?_⟩
  rw [reachedBarrels, Carrier.rounds,
    Carrier.fresh_of_nodup (by simpa using nodup_keys_firstCarriers hkeys)]
  exact List.mem_filterMap.2 ⟨barrel, hmember,
    FileModule.carrier?_eq_some.2 ⟨hnames, rfl⟩⟩

end Chains

/-! ## The queue -/

section Queue

variable (tree : FileTree) (corpus : Corpus) (styles : StyleFilter)

theorem Pending.carrier?_of_module {corpus : Corpus}
    (hpaths : corpus.DistinctPaths) {module : FileModule}
    (hmember : module ∈ corpus.modules) (via : Path) (carried : Carried) :
    Pending.carrier? tree corpus ⟨module.path, via, carried⟩ =
      module.carrier? tree corpus.resolver via carried := by
  simp only [Pending.carrier?, hpaths.module?_eq hmember, Option.bind_some,
    FileModule.carrier?]

private theorem Carrier.filterMap_pending {corpus : Corpus}
    (hpaths : corpus.DistinctPaths) (carrier : Carrier) :
    (carrier.pending tree corpus styles).filterMap
      (Pending.carrier? tree corpus) =
      carrier.arrivals tree corpus styles := by
  rw [pending, consumers_eq, List.filterMap_map, List.filterMap_filterMap,
    arrivals]
  refine List.filterMap_congr fun module hmember => ?_
  have hmodule :=
    Pending.carrier?_of_module tree hpaths hmember carrier.barrel
      (some carrier.names)
  by_cases hsame : module.path.sameFile carrier.barrel = true
  · simp [hsame]
  · by_cases hnone : (carrier.uses tree corpus.resolver styles module).isEmpty =
      true
    · simp [hsame, hnone, importerOf?]
    · simp [hsame, hnone, importerOf?, hmodule]

def Trace.follow (trace : Trace) (carriers : List Carrier) : Trace where
  visited := ⟨(Carrier.keys carriers).reverse ++ trace.visited.keys⟩
  pending :=
    trace.pending ++ carriers.flatMap (Carrier.pending tree corpus styles)
  found :=
    addImporters trace.found
      (carriers.flatMap (Carrier.consumers tree corpus styles))

theorem Trace.iterate_layer (layer rest : List Pending)
    (visited : VisitedBarrels) (found : List Importer) :
    (step tree corpus styles)^[layer.length] ⟨visited, layer ++ rest, found⟩ =
      follow tree corpus styles ⟨visited, rest, found⟩
        (Carrier.fresh visited.keys
          (layer.filterMap (Pending.carrier? tree corpus))) := by
  induction layer generalizing visited rest found with
  | nil => simp [follow, Carrier.fresh, Carrier.keys, addImporters]
  | cons next layer ih =>
      have hpending :
        (⟨visited, next :: layer ++ rest, found⟩ : Trace).pending =
          next :: (layer ++ rest) := rfl
      rw [List.length_cons, Function.iterate_succ_apply]
      -- What the next file carries is fresh exactly when the step follows it.
      cases hcarrier : next.carrier? tree corpus with
      | none =>
          rw [step_skip tree corpus styles hpending (.inr hcarrier),
            List.filterMap_cons_none hcarrier]
          exact ih rest visited found
      | some carrier =>
          have hbarrel := Pending.carrier?_barrel hcarrier
          rw [List.filterMap_cons_some hcarrier, Carrier.fresh, hbarrel]
          cases hvisited : visited.contains next.file with
          | true =>
              have hknown : visited.keys.contains next.file.key = true :=
                hvisited
              rw [step_skip tree corpus styles hpending (.inl hvisited),
                if_pos hknown]
              exact ih rest visited found
          | false =>
              have hknown : visited.keys.contains next.file.key = false :=
                hvisited
              rw [step_follow tree corpus styles hpending hvisited hcarrier,
                List.append_assoc, ih, hknown]
              simp [follow, Carrier.keys, hbarrel, addImporters_append]

def Trace.afterRounds (start : List Carrier) (direct : List Importer)
    (count : Nat) : Trace where
  visited :=
    ⟨(Carrier.keys (Carrier.rounds tree corpus styles start count).1).reverse⟩
  pending :=
    (Carrier.rounds tree corpus styles start count).2.flatMap
      (Carrier.pending tree corpus styles)
  found := addImporters direct
    ((Carrier.rounds tree corpus styles start count).1.flatMap
      (Carrier.consumers tree corpus styles))

private theorem Trace.afterRounds_succ {corpus : Corpus}
    (hpaths : corpus.DistinctPaths) (start : List Carrier)
    (direct : List Importer) (count : Nat) :
    (step tree corpus styles)^[(afterRounds tree corpus styles start direct
      count).pending.length]
        (afterRounds tree corpus styles start direct count) =
      afterRounds tree corpus styles start direct (count + 1) := by
  obtain ⟨known, last, hrounds⟩ : ∃ known last,
      Carrier.rounds tree corpus styles start count = (known, last) :=
    ⟨_, _, rfl⟩
  have hlayer := iterate_layer tree corpus styles
    (last.flatMap (Carrier.pending tree corpus styles)) []
    ⟨(Carrier.keys known).reverse⟩
    (addImporters direct (known.flatMap (Carrier.consumers tree corpus styles)))
  rw [List.append_nil, List.filterMap_flatMap] at hlayer
  simp only [Carrier.filterMap_pending tree styles hpaths] at hlayer
  rw [Carrier.fresh_congr (fun key => List.mem_reverse)] at hlayer
  simp only [afterRounds, Carrier.rounds, hrounds]
  rw [hlayer]
  simp [follow, Carrier.keys, addImporters_append]

theorem Trace.iterate_of_nil {trace : Trace} (h : trace.pending = [])
    (count : Nat) :
    (step tree corpus styles)^[count] trace = trace :=
  Function.iterate_fixed (step_of_nil tree corpus styles h) count

def directCarriers (target : Path) (direct : List Importer) : List Carrier :=
  (Trace.start target direct).pending.filterMap (Pending.carrier? tree corpus)

private theorem Trace.exists_iterate_eq_afterRounds {corpus : Corpus}
    (hpaths : corpus.DistinctPaths) (target : Path) (direct : List Importer)
    (count : Nat) :
    ∃ steps,
      (step tree corpus styles)^[steps] (start target direct) =
          afterRounds tree corpus styles
            (directCarriers tree corpus target direct) direct count ∧
        (count ≤ steps ∨
          (afterRounds tree corpus styles (directCarriers tree corpus target
            direct) direct count).pending = []) := by
  induction count with
  | zero =>
      refine ⟨(start target direct).pending.length, ?_, .inl (Nat.zero_le _)⟩
      have hlayer :=
        iterate_layer tree corpus styles (start target direct).pending
          [] VisitedBarrels.empty direct
      rw [List.append_nil] at hlayer
      rw [show start target direct =
        ⟨VisitedBarrels.empty, (start target direct).pending, direct⟩ from rfl]
      rw [hlayer]
      simp [follow, afterRounds, Carrier.rounds, directCarriers,
        VisitedBarrels.empty]
  | succ count ih =>
      obtain ⟨steps, hsteps, hcount⟩ := ih
      have hround :=
        afterRounds_succ tree styles hpaths
          (directCarriers tree corpus target direct) direct count
      refine ⟨_, by rw [← hround, ← hsteps, ← Function.iterate_add_apply], ?_⟩
      rw [hsteps]
      by_cases hpending :
          (afterRounds tree corpus styles (directCarriers tree corpus target
            direct) direct count).pending = []
      · rw [hpending] at hround
        exact .inr (by rw [← hround]; exact hpending)
      · -- A round with pending files takes at least one step.
        have hpositive := List.length_pos_iff.2 hpending
        have hsteps := hcount.resolve_right hpending
        exact .inl (by omega)

theorem traceBarrels_eq {corpus : Corpus} (hpaths : corpus.DistinctPaths)
    (target : Path) (direct : List Importer) {count : Nat}
    (hcount : traceSteps corpus direct ≤ count) :
    traceBarrels tree corpus styles target direct =
      (Trace.afterRounds tree corpus styles
        (directCarriers tree corpus target direct) direct count).found := by
  have hended := Trace.run_pending_eq_nil tree corpus styles
    (Nat.le_of_eq (Trace.budget_start corpus target direct))
  rw [traceBarrels_eq_run]
  rw [Trace.run_eq_iterate] at hended ⊢
  obtain ⟨steps, hsteps, hreached⟩ :=
    Trace.exists_iterate_eq_afterRounds tree styles hpaths target direct count
  congr 1
  -- Either the round ends after the walk has ended, or it leaves nothing to
  -- walk on.
  rcases hreached with hreached | hreached
  · obtain ⟨more, rfl⟩ :=
      Nat.exists_eq_add_of_le' (Nat.le_trans hcount hreached)
    rw [← hsteps, Function.iterate_add_apply,
      Trace.iterate_of_nil tree corpus styles hended]
  · rw [← Trace.iterate_of_nil tree corpus styles hreached
      (traceSteps corpus direct), ← hsteps, ← Function.iterate_add_apply,
      Nat.add_comm, Function.iterate_add_apply,
      Trace.iterate_of_nil tree corpus styles hended]

/--
What merging neither loses nor invents is found by the walk if it is found
among the direct importers or among the consumers of a barrel, with the names
of its first arrival.
-/
theorem exists_mem_traceBarrels {corpus : Corpus}
    (hpaths : corpus.DistinctPaths) (target : Path) (direct : List Importer)
    {p : Importer → Prop}
    (hmerge : ∀ known added : List Importer,
      (∃ importer ∈ addImporters known added, p importer) ↔
      (∃ importer ∈ known, p importer) ∨ ∃ importer ∈ added, p importer) :
    (∃ importer ∈ traceBarrels tree corpus styles target direct, p importer) ↔
      (∃ importer ∈ direct, p importer) ∨
        ∃ count,
          ∃ carrier ∈ (Carrier.rounds tree corpus styles
            (directCarriers tree corpus target direct) count).1,
          ∃ importer ∈ carrier.consumers tree corpus styles, p importer := by
  have hfound (count : Nat) (hcount : traceSteps corpus direct ≤ count) :
      (∃ importer ∈ traceBarrels tree corpus styles target direct, p importer) ↔
        (∃ importer ∈ direct, p importer) ∨
          ∃ carrier ∈ (Carrier.rounds tree corpus styles
            (directCarriers tree corpus target direct) count).1,
            ∃ importer ∈ carrier.consumers tree corpus styles, p importer := by
    rw [traceBarrels_eq tree styles hpaths target direct hcount,
      Trace.afterRounds, hmerge]
    refine or_congr_right ⟨?_, ?_⟩
    · rintro ⟨importer, himporter, hp⟩
      obtain ⟨carrier, hcarrier, hconsumer⟩ := List.mem_flatMap.1 himporter
      exact ⟨carrier, hcarrier, importer, hconsumer, hp⟩
    · rintro ⟨carrier, hcarrier, importer, hconsumer, hp⟩
      exact ⟨importer, List.mem_flatMap.2 ⟨carrier, hcarrier, hconsumer⟩, hp⟩
  constructor
  · intro h
    exact ((hfound _ (Nat.le_refl _)).1 h).imp id fun hcarrier => ⟨_, hcarrier⟩
  · rintro (h | ⟨count, carrier, hcarrier, h⟩)
    · exact (hfound _ (Nat.le_refl _)).2 (.inl h)
    · have hlater :=
        Carrier.known_subset_of_le
          (Nat.le_max_left count (traceSteps corpus direct)) hcarrier
      exact (hfound _ (Nat.le_max_right count (traceSteps corpus direct))).2
        (.inr ⟨carrier, hlater, h⟩)

theorem mem_importerKeys_traceBarrels {corpus : Corpus}
    (hkeys : corpus.DistinctKeys) (target : Path) (direct : List Importer)
    {key : String} :
    key ∈ importerKeys (traceBarrels tree corpus styles target direct) ↔
      key ∈ importerKeys direct ∨
        ∃ count,
          ∃ carrier ∈ (Carrier.rounds tree corpus styles
            (directCarriers tree corpus target direct) count).1,
          key ∈ importerKeys (carrier.consumers tree corpus styles) := by
  simp only [importerKeys, List.mem_map]
  refine exists_mem_traceBarrels tree styles hkeys.distinctPaths target direct
    fun known added => ?_
  simpa only [importerKeys, List.mem_map] using mem_importerKeys_addImporters

end Queue

end ImportAtlas
