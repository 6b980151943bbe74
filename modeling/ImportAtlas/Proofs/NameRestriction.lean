import ImportAtlas.Barrel.Consumer
import ImportAtlas.Proofs.ForwardedItems

/-!
# Restricted names

A barrel behind another barrel passes on only names that the inner one carries,
and the fewer names arrive, the fewer are passed on.  Sets of names do not
simply shrink, though: the name `*` stands for everything, where names arrive
as well as where they are passed on, so a smaller set is one whose names are
covered by the larger one.
-/

namespace ImportAtlas

/-- Whether a set stands for a name: it holds the name itself, or everything. -/
def NameSet.Covers (set : NameSet) (name : String) : Prop :=
  name ∈ set.names ∨ wholeName ∈ set.names

instance (set : NameSet) (name : String) : Decidable (set.Covers name) :=
  inferInstanceAs (Decidable (_ ∨ _))

namespace Carried

def Has : Carried → String → Prop
  | none, _ => True
  | some set, name => set.Covers name

def IsWhole : Carried → Prop
  | none => True
  | some set => wholeName ∈ set.names

structure Within (narrow wide : Carried) : Prop where
  names : ∀ set ∈ narrow, ∀ name ∈ set.names, wide.Has name
  whole : narrow.IsWhole → wide.IsWhole

variable {narrow wide : Carried} {name : String}

private theorem within_none (carried : Carried) : carried.Within none :=
  ⟨fun _ _ _ _ => trivial, fun _ => trivial⟩

theorem IsWhole.has (h : wide.IsWhole) (name : String) : wide.Has name := by
  cases wide with
  | none => trivial
  | some set => exact .inr h

theorem Within.has (h : narrow.Within wide) (hname : narrow.Has name) :
    wide.Has name := by
  cases narrow with
  | none => exact (h.whole trivial).has name
  | some set =>
      rcases hname with hmem | hwhole
      · exact h.names set rfl name hmem
      · exact (h.whole hwhole).has name

theorem covers_iff {carried : Carried} :
    carried.covers name = true ↔ name = wholeName ∨ carried.Has name := by
  cases carried with
  | none => simp [covers, Has]
  | some set => simp [covers, Has, NameSet.Covers, NameSet.contains, or_comm]

theorem Within.covers (h : narrow.Within wide)
    (hname : narrow.covers name = true) : wide.covers name = true :=
  covers_iff.2 ((covers_iff.1 hname).imp id h.has)

private theorem wholeNames_of_isWhole (h : wide.IsWhole) :
    wide.wholeNames = [wholeName] := by
  cases wide with
  | none => rfl
  | some set =>
      have hmem : wholeName ∈ set.names := h
      simp [wholeNames, NameSet.contains, hmem]

theorem wholeNames_of_not_isWhole {set : NameSet} (h : wholeName ∉ set.names) :
    wholeNames (some set) = set.names := by
  simp [wholeNames, NameSet.contains, h]

private theorem Within.mem_wholeNames (h : narrow.Within wide)
    (hname : name ∈ narrow.wholeNames) :
    name ∈ wide.wholeNames ∨ wholeName ∈ wide.wholeNames := by
  by_cases hwide : wide.IsWhole
  · exact .inr (by simp [wholeNames_of_isWhole hwide])
  · -- Then neither of the two is whole, and both are passed on name by name.
    have hnarrow : ¬narrow.IsWhole := fun hwhole => hwide (h.whole hwhole)
    cases narrow with
    | none => exact absurd trivial hnarrow
    | some set =>
        rw [wholeNames_of_not_isWhole hnarrow] at hname
        have hcovered := h.names set rfl name hname
        cases wide with
        | none => exact absurd trivial hwide
        | some other =>
            rw [wholeNames_of_not_isWhole hwide]
            exact hcovered

end Carried

/-! ## What is passed on -/

section Forwarding

variable {tree : FileTree} {resolver : Resolver} {candidate : FileModule}
    {target : Path} {narrow wide : Carried}
  {name : String}

private theorem Carried.Within.mem_exportForwards (h : narrow.Within wide)
    {fromTarget : List ImportRecord}
    {made : ExportRecord}
    (hname : name ∈ exportForwards tree resolver candidate target narrow
      fromTarget made) :
    name ∈ exportForwards tree resolver candidate target wide fromTarget made ∨
      wholeName ∈ exportForwards tree resolver candidate target wide
        fromTarget made := by
  cases hsource : made.source with
  | none =>
      obtain ⟨hexported, taken, htaken, binding, hbinding, hlocal, hcarried⟩ :=
        (mem_exportForwards_of_local hsource).1 hname
      exact .inl ((mem_exportForwards_of_local hsource).2
        ⟨hexported, taken, htaken, binding, hbinding, hlocal,
          h.covers hcarried⟩)
  | some source =>
      rw [exportForwards_of_source hsource] at hname ⊢
      split at hname
      · rename_i hreaches
        rw [if_pos hreaches]
        split at hname
        · rename_i hwhole
          rw [if_pos hwhole]
          exact h.mem_wholeNames hname
        · rename_i hwhole
          rw [if_neg hwhole]
          split at hname
          · rename_i hcarried
            rw [if_pos (h.covers hcarried)]
            exact .inl hname
          · cases hname
      · cases hname

theorem Carried.Within.covers_forwardedNames (h : narrow.Within wide)
    (hname : name ∈
      (forwardedNames tree resolver candidate target narrow).names) :
    (forwardedNames tree resolver candidate target wide).Covers name := by
  obtain ⟨himport, made, hmade, hforwards⟩ := mem_forwardedNames.1 hname
  refine (h.mem_exportForwards hforwards).imp ?_ ?_
  · intro hsame
    exact mem_forwardedNames.2 ⟨himport, made, hmade, hsame⟩
  · intro hwhole
    exact mem_forwardedNames.2 ⟨himport, made, hmade, hwhole⟩

theorem isBarrel_iff {carried : Carried} :
    isBarrel tree resolver candidate target carried = true ↔
      ∃ name, name ∈
        (forwardedNames tree resolver candidate target carried).names := by
  simp only [isBarrel, NameSet.isEmpty, Bool.not_eq_true',
    List.isEmpty_eq_false_iff_exists_mem]

theorem Carried.Within.isBarrel_of_isBarrel (h : narrow.Within wide)
    (hbarrel : isBarrel tree resolver candidate target narrow = true) :
    isBarrel tree resolver candidate target wide = true := by
  obtain ⟨name, hname⟩ := isBarrel_iff.1 hbarrel
  rcases h.covers_forwardedNames hname with hsame | hwhole
  · exact isBarrel_iff.2 ⟨name, hsame⟩
  · exact isBarrel_iff.2 ⟨wholeName, hwhole⟩

theorem usesAny_iff {record : ImportRecord} {names : NameSet} :
    usesAny record names = true ↔
      record.isSideEffectOnly = true ∨ record.bindsWhole = true ∨
      wholeName ∈ names.names ∨
        ∃ name ∈ record.importedNames, name ∈ names.names := by
  simp [usesAny, NameSet.contains, or_assoc]

theorem usesAny_of_covers {first second : NameSet}
    (h : ∀ name ∈ first.names, second.Covers name) {record : ImportRecord}
    (huses : usesAny record first = true) : usesAny record second = true := by
  rcases usesAny_iff.1 huses
    with hbare | hwhole | hstar | ⟨name, himported, hname⟩
  · exact usesAny_iff.2 (.inl hbare)
  · exact usesAny_iff.2 (.inr (.inl hwhole))
  · exact usesAny_iff.2 (.inr (.inr (.inl ((h wholeName hstar).elim id id))))
  · rcases h name hname with hsame | hstar
    · exact usesAny_iff.2 (.inr (.inr (.inr ⟨name, himported, hsame⟩)))
    · exact usesAny_iff.2 (.inr (.inr (.inl hstar)))

end Forwarding

/--
With fewer names carried by the target, a candidate passes on no names that it
does not cover with more of them: it is no barrel that it would not be
otherwise, and gains no users.
-/
theorem name_restriction_is_monotone {narrow wide : Carried}
    (h : narrow.Within wide) (tree : FileTree) (resolver : Resolver)
    (candidate : FileModule) (target : Path) :
    (∀ name ∈ (forwardedNames tree resolver candidate target narrow).names,
        (forwardedNames tree resolver candidate target wide).Covers name) ∧
      (isBarrel tree resolver candidate target narrow = true →
        isBarrel tree resolver candidate target wide = true ∧
        isBarrel tree resolver candidate target none = true) ∧
      (∀ record,
        usesAny record
          (forwardedNames tree resolver candidate target narrow) = true →
        usesAny record
          (forwardedNames tree resolver candidate target wide) = true) ∧
      ∀ first second, narrow = some first → wide = some second →
        ∀ record, usesAny record first = true →
          usesAny record second = true := by
  refine ⟨fun name => h.covers_forwardedNames, ?_, ?_, ?_⟩
  · intro hbarrel
    exact ⟨h.isBarrel_of_isBarrel hbarrel,
      (Carried.within_none narrow).isBarrel_of_isBarrel hbarrel⟩
  · intro record
    exact usesAny_of_covers fun name => h.covers_forwardedNames
  · rintro first second rfl rfl record
    exact usesAny_of_covers fun name hname => h.names first rfl name hname

def mixedBarrel : FileModule :=
  .ofItems ⟨"/b.ts"⟩
    [.reExport ⟨"./t", [⟨"A", "A"⟩, ⟨"B", "B"⟩], .named, 1, 1,
        "export \x7b A, B as Bee \x7d from './t';"⟩ [("A", "A"), ("B", "Bee")],
      .reExportAll ⟨"./t", [⟨"*", "*"⟩], .whole, 2, 1,
        "export * from './t';"⟩ none]

theorem star_covers_restricted_name :
    "B" ∈ (forwardedNames clashTree (Resolver.new none) mixedBarrel ⟨"/t.ts"⟩
      (some ⟨["B"]⟩)).names ∧
      "B" ∉ (forwardedNames clashTree (Resolver.new none) mixedBarrel ⟨"/t.ts"⟩
        (some ⟨["*"]⟩)).names ∧
      (forwardedNames clashTree (Resolver.new none) mixedBarrel ⟨"/t.ts"⟩
        (some ⟨["*"]⟩)).Covers "B" := by
  have hwithin : Carried.Within (some ⟨["B"]⟩) (some ⟨["*"]⟩) := by
    constructor
    · rintro set ⟨⟩ name -
      exact .inr List.mem_cons_self
    · intro _
      exact List.mem_cons_self
  obtain ⟨hnarrow, hwide⟩ :
      "B" ∈ (forwardedNames clashTree (Resolver.new none) mixedBarrel ⟨"/t.ts"⟩
        (some ⟨["B"]⟩)).names ∧
        "B" ∉ (forwardedNames clashTree (Resolver.new none) mixedBarrel
          ⟨"/t.ts"⟩ (some ⟨["*"]⟩)).names := by
    decide +kernel
  exact ⟨hnarrow, hwide,
    (name_restriction_is_monotone hwithin clashTree (Resolver.new none)
      mixedBarrel ⟨"/t.ts"⟩).1 "B" hnarrow⟩

end ImportAtlas
