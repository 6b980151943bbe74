import ImportAtlas.Proofs.ImporterMerge
import ImportAtlas.Proofs.LoadedCorpus
import Mathlib.Logic.Function.Iterate

/-!
# The walk through barrels

A search walks from the direct importers of its target through barrels.  This
file says once what a step of the walk can do, and that the walk ends: a step
either drops a pending file, or follows a barrel that was not followed before
and thereby uses up the identity of a file of the corpus.
-/

namespace ImportAtlas

/-! ## Barrels depend on identities only -/

theorem Resolver.leadsTo_congr {first second : Path}
    (h : first.key = second.key) (tree : FileTree) (resolver : Resolver)
    (file : Path) (record : ImportRecord) :
    resolver.leadsTo tree file record first =
      resolver.leadsTo tree file record second := by
  unfold Resolver.leadsTo
  cases resolver.targetOf tree file record with
  | none => rfl
  | some target => exact Target.isFile_congr h target

theorem forwardedNames_congr {first second : Path} (h : first.key = second.key)
    (tree : FileTree) (resolver : Resolver) (candidate : FileModule)
    (carried : Carried) :
    forwardedNames tree resolver candidate first carried =
      forwardedNames tree resolver candidate second carried := by
  have hexport (fromTarget : List ImportRecord) :
      exportForwards tree resolver candidate first carried fromTarget =
        exportForwards tree resolver candidate second carried fromTarget := by
    funext record
    unfold exportForwards
    simp only [Target.isFile_congr h]
  simp only [forwardedNames, Resolver.leadsTo_congr h, hexport]

/-! ## Carriers -/

/-- A barrel with the names of the target that it passes on. -/
structure Carrier where
  barrel : Path
  names : NameSet
  deriving DecidableEq, Repr

def FileModule.carrier? (tree : FileTree) (resolver : Resolver) (via : Path)
    (carried : Carried) (module : FileModule) : Option Carrier :=
  let names := forwardedNames tree resolver module via carried
  if names.isEmpty then none else some ⟨module.path, names⟩

def Pending.carrier? (tree : FileTree) (corpus : Corpus) (pending : Pending) :
    Option Carrier :=
  (corpus.module? pending.file).bind fun module =>
    let names :=
      forwardedNames tree corpus.resolver module pending.via pending.carried
    if names.isEmpty then none else some ⟨pending.file, names⟩

namespace Carrier

def uses (tree : FileTree) (resolver : Resolver) (styles : StyleFilter)
    (carrier : Carrier) (module : FileModule) : List ImportRecord :=
  (barrelImports tree resolver carrier.barrel carrier.names module).filter
    fun record => styles.allows record.style

def consumers (tree : FileTree) (corpus : Corpus) (styles : StyleFilter)
    (carrier : Carrier) : List Importer :=
  allowedConsumers styles
    (barrelConsumers tree corpus.resolver carrier.barrel carrier.names
      corpus.modules)

def pending (tree : FileTree) (corpus : Corpus) (styles : StyleFilter)
    (carrier : Carrier) : List Pending :=
  (carrier.consumers tree corpus styles).map fun consumer =>
    ⟨consumer.file, carrier.barrel, some carrier.names⟩

theorem mem_uses {tree : FileTree} {resolver : Resolver} {styles : StyleFilter}
    {carrier : Carrier} {module : FileModule} {record : ImportRecord} :
    record ∈ carrier.uses tree resolver styles module ↔
      record ∈ module.imports ∧
      resolver.leadsTo tree module.path record carrier.barrel = true ∧
        usesAny record carrier.names = true ∧
        styles.allows record.style = true := by
  simp only [uses, barrelImports, List.mem_filter, Bool.and_eq_true, and_assoc]

theorem consumers_eq (tree : FileTree) (corpus : Corpus) (styles : StyleFilter)
    (carrier : Carrier) :
    carrier.consumers tree corpus styles =
      corpus.modules.filterMap fun module =>
      if module.path.sameFile carrier.barrel then none
      else importerOf? module.path
        (carrier.uses tree corpus.resolver styles module) := by
  rw [consumers, allowedConsumers, barrelConsumers, List.filterMap_filterMap]
  refine congrArg (corpus.modules.filterMap ·) (funext fun module => ?_)
  unfold uses
  generalize barrelImports tree corpus.resolver carrier.barrel carrier.names
    module = found
  by_cases hsame : module.path.sameFile carrier.barrel = true
  · simp only [hsame, if_true, Option.bind_none]
  · simp only [hsame]
    cases found with
    | nil => rfl
    | cons record records => exact match_eq_importerOf? module.path _

theorem mem_consumers {tree : FileTree} {corpus : Corpus} {styles : StyleFilter}
    {carrier : Carrier} {importer : Importer} :
    importer ∈ carrier.consumers tree corpus styles ↔
      ∃ module ∈ corpus.modules, module.path.sameFile carrier.barrel = false ∧
        carrier.uses tree corpus.resolver styles module ≠ [] ∧
        importer =
          ⟨module.path, carrier.uses tree corpus.resolver styles module⟩ := by
  simp only [consumers_eq, List.mem_filterMap, Option.ite_none_left_eq_some,
    importerOf?_eq_some, Bool.not_eq_true]

private theorem length_consumers_le (tree : FileTree) (corpus : Corpus)
    (styles : StyleFilter) (carrier : Carrier) :
    (carrier.consumers tree corpus styles).length ≤ corpus.modules.length := by
  rw [consumers_eq]
  exact List.length_filterMap_le _ _

end Carrier

/-! ## Steps -/

namespace Pending

variable {tree : FileTree} {corpus : Corpus} {pending : Pending}
    {carrier : Carrier}

theorem carrier?_barrel (h : pending.carrier? tree corpus = some carrier) :
    carrier.barrel = pending.file := by
  obtain ⟨module, -, hnames⟩ := Option.bind_eq_some_iff.1 h
  simp only [Option.ite_none_left_eq_some, Option.some.injEq] at hnames
  rw [← hnames.2]

theorem exists_module_of_carrier?
    (h : pending.carrier? tree corpus = some carrier) :
    ∃ module ∈ corpus.modules, module.path.same pending.file = true ∧
      carrier.names = forwardedNames tree corpus.resolver module pending.via
        pending.carried ∧
      carrier.names.isEmpty = false := by
  obtain ⟨module, hmodule, hnames⟩ := Option.bind_eq_some_iff.1 h
  simp only [Option.ite_none_left_eq_some, Option.some.injEq] at hnames
  obtain ⟨hmem, hsame⟩ := Corpus.mem_of_module? hmodule
  refine ⟨module, hmem, hsame, ?_, ?_⟩ <;> rw [← hnames.2]
  simpa using hnames.1

end Pending

namespace Trace

variable (tree : FileTree) (corpus : Corpus) (styles : StyleFilter)
    {trace : Trace}
  {next : Pending} {rest : List Pending}

theorem step_of_nil (h : trace.pending = []) :
    trace.step tree corpus styles = trace := by
  simp [step, h]

theorem step_skip (hpending : trace.pending = next :: rest)
    (h : trace.visited.contains next.file = true ∨
      next.carrier? tree corpus = none) :
    trace.step tree corpus styles = { trace with pending := rest } := by
  simp only [step, hpending]
  unfold Pending.carrier? at h
  split
  · rfl
  · rename_i hvisited
    replace h := h.resolve_left hvisited
    split
    · rfl
    · rename_i module hmodule
      simp only [hmodule, Option.bind_some, ite_eq_left_iff, reduceCtorEq,
        imp_false] at h
      rw [if_pos (by simpa using h)]

theorem step_follow {carrier : Carrier}
    (hpending : trace.pending = next :: rest)
    (hvisited : trace.visited.contains next.file = false)
    (hcarrier : next.carrier? tree corpus = some carrier) :
    trace.step tree corpus styles =
      { visited := ⟨next.file.key :: trace.visited.keys⟩
        pending := rest ++ carrier.pending tree corpus styles
        found :=
          addImporters trace.found
            (carrier.consumers tree corpus styles) } := by
  obtain ⟨module, hmodule, hnames⟩ := Option.bind_eq_some_iff.1 hcarrier
  simp only [Option.ite_none_left_eq_some, Option.some.injEq] at hnames
  obtain ⟨hnonempty, rfl⟩ := hnames
  simp only [step, hpending, hvisited, hmodule, hnonempty, followBarrel,
    VisitedBarrels.insert, Carrier.pending, Carrier.consumers]
  rfl

/-- All that a step can do with a pending file. -/
theorem step_cases (hpending : trace.pending = next :: rest) :
    trace.step tree corpus styles = { trace with pending := rest } ∨
      ∃ carrier, next.carrier? tree corpus = some carrier ∧
        trace.visited.contains next.file = false ∧
        trace.step tree corpus styles =
          { visited := ⟨next.file.key :: trace.visited.keys⟩
            pending := rest ++ carrier.pending tree corpus styles
            found :=
              addImporters trace.found
                (carrier.consumers tree corpus styles) } := by
  cases hcarrier : next.carrier? tree corpus with
  | none => exact .inl (step_skip tree corpus styles hpending (.inr hcarrier))
  | some carrier =>
      cases hvisited : trace.visited.contains next.file with
      | true =>
        exact .inl (step_skip tree corpus styles hpending (.inl hvisited))
      | false =>
        exact .inr ⟨carrier, rfl, rfl,
          step_follow tree corpus styles hpending hvisited hcarrier⟩

def start (target : Path) (direct : List Importer) : Trace :=
  ⟨VisitedBarrels.empty, direct.map fun importer =>
    ⟨importer.file, target, none⟩, direct⟩

theorem run_invariant {p : Trace → Prop}
    (hstep : ∀ trace, p trace → p (trace.step tree corpus styles)) (h : p trace)
    (steps : Nat) : p (trace.run tree corpus styles steps) := by
  induction steps generalizing trace with
  | zero => exact h
  | succ steps ih =>
      rw [run]
      split
      · exact h
      · exact ih (hstep trace h)

theorem run_eq_iterate (steps : Nat) :
    trace.run tree corpus styles steps =
      (step tree corpus styles)^[steps] trace := by
  induction steps generalizing trace with
  | zero => rfl
  | succ steps ih =>
      rw [run, Function.iterate_succ_apply]
      split
      · rename_i hempty
        rw [step_of_nil tree corpus styles (List.isEmpty_iff.1 hempty), ← ih]
        cases steps with
        | zero => rfl
        | succ steps => rw [run, if_pos hempty]
      · exact ih

/-! ## Termination -/

def budget (trace : Trace) : Nat :=
  trace.pending.length + corpus.modules.length *
    (corpus.unmarked trace.visited.keys).length

theorem budget_step_lt (h : trace.pending ≠ []) :
    (trace.step tree corpus styles).budget corpus < trace.budget corpus := by
  obtain ⟨next, rest, hpending⟩ := List.exists_cons_of_ne_nil h
  rcases step_cases tree corpus styles hpending
    with hstep | ⟨carrier, hcarrier, hvisited, hstep⟩
  · simp [hstep, budget, hpending]
  · obtain ⟨module, hmodule, hsame, -, -⟩ :=
      Pending.exists_module_of_carrier? hcarrier
    have hkey := Path.key_eq_of_same hsame
    have hnew : module.path.key ∉ trace.visited.keys := by
      simpa [VisitedBarrels.contains, hkey] using hvisited
    have hless := Corpus.length_unmarked_cons_lt hmodule hnew
    have hmarked : (trace.step tree corpus styles).visited.keys =
        module.path.key :: trace.visited.keys := by
      rw [hstep, hkey]
    -- Following a barrel uses up a module, which pays for one pending file per
    -- module.
    have hmore := Carrier.length_consumers_le tree corpus styles carrier
    have hproduct :=
      Nat.mul_le_mul_left corpus.modules.length (Nat.succ_le_of_lt hless)
    rw [Nat.mul_succ] at hproduct
    simp only [budget, hmarked, hpending, List.length_cons]
    have hlength : (trace.step tree corpus styles).pending.length ≤
        rest.length + corpus.modules.length := by
      simpa [hstep, Carrier.pending] using hmore
    omega

theorem run_pending_eq_nil {steps : Nat} (h : trace.budget corpus ≤ steps) :
    (trace.run tree corpus styles steps).pending = [] := by
  induction steps generalizing trace with
  | zero =>
      simp only [budget] at h
      exact List.length_eq_zero_iff.1 (by rw [run]; omega)
  | succ steps ih =>
      rw [run]
      split
      · rename_i hempty
        exact List.isEmpty_iff.1 hempty
      · rename_i hpending
        have hless :=
          budget_step_lt tree corpus styles
            (by simpa using hpending : trace.pending ≠ [])
        exact ih (by omega)

theorem budget_start (target : Path) (direct : List Importer) :
    (start target direct).budget corpus = traceSteps corpus direct := by
  have hall : corpus.unmarked (start target direct).visited.keys =
      corpus.modules :=
    List.filter_eq_self.2 (by simp [start, VisitedBarrels.empty])
  rw [budget, hall, traceSteps, start, List.length_map]

end Trace

theorem traceBarrels_eq_run (tree : FileTree) (corpus : Corpus)
    (styles : StyleFilter) (target : Path) (direct : List Importer) :
    traceBarrels tree corpus styles target direct =
      ((Trace.start target direct).run tree corpus styles
        (traceSteps corpus direct)).found := rfl

end ImportAtlas
