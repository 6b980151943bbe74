import ImportAtlas.Proofs.BarrelRounds
import Mathlib.Data.List.Dedup
import Mathlib.Logic.Relation
import Mathlib.Order.WellFounded

/-!
# The walk through barrels ends

The walk goes on as long as files are pending, and it adds pending files while
it goes.  It ends all the same, on every corpus: whatever circles the barrels
form, each identity is followed at most once.  The steps that `traceBarrels`
allows are therefore never too few, and its result is that of the loop without
a bound.
-/

namespace ImportAtlas

namespace Trace

variable (tree : FileTree) (corpus : Corpus) (styles : StyleFilter)

/-- One turn of the loop, which is taken only while a file is pending. -/
def Turn (before after : Trace) : Prop :=
  before.pending ≠ [] ∧ after = before.step tree corpus styles

/-- The barrel that the next step follows, with the names that it carries,
unless the step drops its file. -/
def followed? (trace : Trace) : Option Carrier :=
  trace.pending.head?.bind fun next =>
    if trace.visited.contains next.file then none else next.carrier? tree corpus

def followedWithin : Nat → Trace → List Carrier
  | 0, _ => []
  | steps + 1, trace =>
    (trace.followed? tree corpus).toList ++
      followedWithin steps (trace.step tree corpus styles)

/-! ## Turns -/

theorem followed?_eq_some {trace : Trace} {carrier : Carrier}
    (h : trace.followed? tree corpus = some carrier) :
    ∃ next ∈ trace.pending, trace.visited.contains next.file = false ∧
      next.carrier? tree corpus = some carrier := by
  obtain ⟨next, hnext, hcarrier⟩ := Option.bind_eq_some_iff.1 h
  rw [Option.ite_none_left_eq_some, Bool.not_eq_true] at hcarrier
  exact ⟨next, List.mem_of_mem_head? hnext, hcarrier⟩

private theorem key_not_mem_visited {trace : Trace} {carrier : Carrier}
    (h : trace.followed? tree corpus = some carrier) :
    carrier.barrel.key ∉ trace.visited.keys := by
  obtain ⟨next, -, hvisited, hcarrier⟩ := followed?_eq_some tree corpus h
  rw [Pending.carrier?_barrel hcarrier]
  simpa [VisitedBarrels.contains] using hvisited

private theorem key_mem_corpus {trace : Trace} {carrier : Carrier}
    (h : trace.followed? tree corpus = some carrier) :
    carrier.barrel.key ∈ corpus.modules.map fun module => module.path.key := by
  obtain ⟨next, -, -, hcarrier⟩ := followed?_eq_some tree corpus h
  obtain ⟨module, hmember, hsame, -, -⟩ :=
    Pending.exists_module_of_carrier? hcarrier
  rw [Pending.carrier?_barrel hcarrier, ← Path.key_eq_of_same hsame]
  exact List.mem_map_of_mem hmember

theorem step_eq_follow (trace : Trace) :
    trace.step tree corpus styles =
      follow tree corpus styles { trace with pending := trace.pending.tail }
        (trace.followed? tree corpus).toList := by
  obtain ⟨visited, pending, found⟩ := trace
  cases pending with
  | nil => simp [step, followed?, follow, Carrier.keys, addImporters]
  | cons next rest =>
      have hpending : (⟨visited, next :: rest, found⟩ : Trace).pending =
        next :: rest := rfl
      cases hvisited : visited.contains next.file with
      | true =>
          rw [step_skip tree corpus styles hpending (.inl hvisited)]
          simp [followed?, hvisited, follow, Carrier.keys, addImporters]
      | false =>
          cases hcarrier : next.carrier? tree corpus with
          | none =>
              rw [step_skip tree corpus styles hpending (.inr hcarrier)]
              simp [followed?, hcarrier, follow, Carrier.keys, addImporters]
          | some carrier =>
              rw [step_follow tree corpus styles hpending hvisited hcarrier]
              simp [followed?, hvisited, hcarrier, follow, Carrier.keys,
                Pending.carrier?_barrel hcarrier]

private theorem wellFounded_turn :
    WellFounded fun after before => Turn tree corpus styles before after := by
  refine Subrelation.wf (r :=
    InvImage (· < ·) (budget corpus)) ?_ (InvImage.wf _ Nat.lt_wfRel.wf)
  rintro after before ⟨hpending, rfl⟩
  exact budget_step_lt tree corpus styles hpending

/-! ## Runs -/

private theorem reachable_iterate (trace : Trace) (steps : Nat) :
    Relation.ReflTransGen (Turn tree corpus styles) trace
      ((step tree corpus styles)^[steps] trace) := by
  induction steps with
  | zero => exact .refl
  | succ steps ih =>
      rw [Function.iterate_succ_apply']
      by_cases hpending : ((step tree corpus styles)^[steps] trace).pending = []
      · rwa [step_of_nil tree corpus styles hpending]
      · exact ih.tail ⟨hpending, rfl⟩

theorem iterate_followedWithin (trace : Trace) (steps : Nat) :
    ((step tree corpus styles)^[steps] trace).visited.keys =
        (Carrier.keys (followedWithin tree corpus styles steps trace)).reverse
          ++ trace.visited.keys ∧
      ((step tree corpus styles)^[steps] trace).found =
        addImporters trace.found
          ((followedWithin tree corpus styles steps trace).flatMap
            (Carrier.consumers tree corpus styles)) := by
  induction steps generalizing trace with
  | zero => exact ⟨rfl, rfl⟩
  | succ steps ih =>
      obtain ⟨hkeys, hfound⟩ := ih (trace.step tree corpus styles)
      rw [Function.iterate_succ_apply, hkeys, hfound, followedWithin]
      constructor
      · rw [step_eq_follow]
        simp [follow, Carrier.keys]
      · rw [step_eq_follow]
        simp [follow, addImporters_append]

private theorem nodup_keys_followedWithin {trace : Trace}
    (h : trace.visited.keys.Nodup) (steps : Nat) :
    (Carrier.keys (followedWithin tree corpus styles steps trace)).Nodup := by
  have hvisited :
      ((step tree corpus styles)^[steps] trace).visited.keys.Nodup := by
    induction steps with
    | zero => exact h
    | succ steps ih =>
        rw [Function.iterate_succ_apply', step_eq_follow]
        cases hfollowed : followed? tree corpus
          ((step tree corpus styles)^[steps] trace) with
        | none => simpa [follow, Carrier.keys] using ih
        | some carrier =>
          simpa [follow, Carrier.keys, ih] using
            key_not_mem_visited tree corpus hfollowed
  rw [(iterate_followedWithin tree corpus styles trace steps).1] at hvisited
  exact List.nodup_reverse.1 (List.nodup_append.1 hvisited).1

private theorem keys_followedWithin_subset (trace : Trace) (steps : Nat) :
    Carrier.keys (followedWithin tree corpus styles steps trace) ⊆
      corpus.modules.map fun module => module.path.key := by
  induction steps generalizing trace with
  | zero => exact List.nil_subset _
  | succ steps ih =>
      rw [followedWithin, Carrier.keys, List.map_append]
      refine List.append_subset_of_subset_of_subset ?_ (ih _)
      cases hfollowed : trace.followed? tree corpus with
      | none => exact List.nil_subset _
      | some carrier => simpa using key_mem_corpus tree corpus hfollowed

end Trace

def followedBarrels (tree : FileTree) (corpus : Corpus) (styles : StyleFilter)
    (target : Path) (direct : List Importer) : List Carrier :=
  Trace.followedWithin tree corpus styles (traceSteps corpus direct)
    (Trace.start target direct)

/--
On every corpus the loop of the walk ends, from whatever state it starts, and
its result is that of `traceBarrels`.  All that the result adds to the direct
importers are the consumers of the followed barrels, which are one barrel at
most for each identity in the corpus.
-/
theorem walk_ends_following_identities_once (tree : FileTree) (corpus : Corpus)
    (styles : StyleFilter) (target : Path) (direct : List Importer) :
    (WellFounded fun after before =>
      Trace.Turn tree corpus styles before after) ∧
      (∃ last, Relation.ReflTransGen (Trace.Turn tree corpus styles)
        (Trace.start target direct) last ∧
        last.pending = [] ∧
        traceBarrels tree corpus styles target direct = last.found) ∧
      traceBarrels tree corpus styles target direct =
        addImporters direct
          ((followedBarrels tree corpus styles target direct).flatMap
            (Carrier.consumers tree corpus styles)) ∧
      (Carrier.keys (followedBarrels tree corpus styles target direct)).Nodup ∧
      Carrier.keys (followedBarrels tree corpus styles target direct) ⊆
        corpus.modules.map (fun module => module.path.key) ∧
      (followedBarrels tree corpus styles target direct).length ≤
        (corpus.modules.map fun module => module.path.key).dedup.length := by
  have hended := Trace.run_pending_eq_nil tree corpus styles
    (Nat.le_of_eq (Trace.budget_start corpus target direct))
  have hresult := traceBarrels_eq_run tree corpus styles target direct
  rw [Trace.run_eq_iterate] at hended hresult
  have hnodup :
      (Carrier.keys (followedBarrels tree corpus styles target direct)).Nodup :=
    Trace.nodup_keys_followedWithin tree corpus styles List.nodup_nil _
  have hsubset := Trace.keys_followedWithin_subset tree corpus styles
    (Trace.start target direct) (traceSteps corpus direct)
  refine ⟨Trace.wellFounded_turn tree corpus styles,
    ⟨_, Trace.reachable_iterate tree corpus styles _ _, hended, hresult⟩, ?_,
    hnodup, hsubset, ?_⟩
  · rw [hresult, (Trace.iterate_followedWithin tree corpus styles _ _).2]
    rfl
  · have hdedup :=
      (List.subperm_of_subset hnodup fun key hkey =>
        List.mem_dedup.2 (hsubset hkey)).length_le
    simpa [Carrier.keys] using hdedup

def ringTree : FileTree :=
  ⟨[("a.ts", .file (some
      "export * from './t';\nexport * from './a';\nexport * from './b';")),
    ("b.ts", .file (some "export * from './a';")), ("t.ts", .file (some ""))]⟩

def ringCorpus : Corpus :=
  ((Corpus.new ⟨"/"⟩ (Resolver.new none)).loadAll ringTree
    [⟨"/a.ts"⟩, ⟨"/b.ts"⟩, ⟨"/t.ts"⟩] defaultBatchSize).1

example :
    Carrier.keys (followedBarrels ringTree ringCorpus {} ⟨"/t.ts"⟩
      (directImporters ringCorpus {} ⟨none, some ⟨"/t.ts"⟩, []⟩)) =
      ["/a", "/b"] := by
  decide +kernel

end ImportAtlas
