import ImportAtlas.Path.Basic

/-!
# The order of paths

Paths are compared component by component.  The comparison is a total order up
to paths that denote the same place: two paths compare as equal exactly when
their components agree, so a list of paths in strictly increasing order
mentions no place twice.
-/

namespace ImportAtlas.Path

open Std

/-! ## Components -/

theorem Component.compare_eq_then (first second : Component) :
    first.compare second =
      (Ord.compare first.rank second.rank).then
        (Ord.compare first.segment second.segment) := by
  cases first <;> cases second <;> rfl

private theorem Component.eq_of_rank_segment {first second : Component}
    (hrank : first.rank = second.rank)
    (hsegment : first.segment = second.segment) : first = second := by
  cases first <;> cases second <;> simp_all [Component.rank, Component.segment]

instance : TransCmp Component.compare := by
  have hcompare : Component.compare =
      compareLex (compareOn Component.rank) (compareOn Component.segment) := by
    funext first second
    exact Component.compare_eq_then first second
  rw [hcompare]
  infer_instance

instance : LawfulEqCmp Component.compare where
  eq_of_compare {first second} h := by
    rw [Component.compare_eq_then, Ordering.then_eq_eq] at h
    exact Component.eq_of_rank_segment (LawfulEqOrd.eq_of_compare h.1)
      (LawfulEqOrd.eq_of_compare h.2)

/-! ## Lists of components -/

theorem compareComponents_eq_compareLex (first second : List Component) :
    compareComponents first second =
      List.compareLex Component.compare first second := by
  induction first generalizing second with
  | nil => cases second <;> rfl
  | cons component components ih =>
      cases second with
      | nil => rfl
      | cons other others =>
        rw [compareComponents, List.compareLex_cons_cons, ih]

private theorem compareComponents_eq_iff {first second : List Component} :
    compareComponents first second = .eq ↔ first = second := by
  rw [compareComponents_eq_compareLex]
  exact LawfulEqCmp.compare_eq_iff_eq

/-! ## Paths -/

instance : TransCmp Path.compare where
  eq_swap {first second} := by
    simp only [Path.compare, compareComponents_eq_compareLex]
    exact OrientedCmp.eq_swap
  isLE_trans {first second third} := by
    simp only [Path.compare, compareComponents_eq_compareLex]
    exact TransCmp.isLE_trans

theorem same_iff {first second : Path} :
    first.same second = true ↔ first.components = second.components := by
  simp [same]

theorem compare_eq_iff_same {first second : Path} :
    first.compare second = .eq ↔ first.same second = true := by
  rw [same_iff]
  exact compareComponents_eq_iff

theorem same_refl (path : Path) : path.same path = true :=
  same_iff.2 rfl

theorem same_symm {first second : Path} (h : first.same second = true) :
    second.same first = true :=
  same_iff.2 (same_iff.1 h).symm

theorem same_trans {first second third : Path} (h : first.same second = true)
    (h' : second.same third = true) : first.same third = true :=
  same_iff.2 ((same_iff.1 h).trans (same_iff.1 h'))

def Before (first second : Path) : Prop :=
  first.compare second = .lt

theorem Before.trans {first second third : Path} (h : first.Before second)
    (h' : second.Before third) :
    first.Before third :=
  TransCmp.lt_trans h h'

theorem Before.not_same {first second : Path} (h : first.Before second) :
    first.same second ≠ true := by
  intro hsame
  rw [← compare_eq_iff_same, h] at hsame
  contradiction

theorem Before.not_before {first second : Path} (h : first.Before second) :
    ¬ second.Before first := by
  intro h'
  exact (h.trans h').not_same (same_refl first)

private theorem before_or_same_or_before (first second : Path) :
    first.Before second ∨ first.same second = true ∨ second.Before first := by
  cases h : first.compare second with
  | lt => exact .inl h
  | eq => exact .inr (.inl (compare_eq_iff_same.1 h))
  | gt => exact .inr (.inr (OrientedCmp.lt_of_gt h))

theorem le_trans (first second third : Path) (h : first.le second)
    (h' : second.le third) : first.le third :=
  TransCmp.isLE_trans h h'

private theorem le_total (first second : Path) :
    first.le second || second.le first := by
  simp only [le, Bool.or_eq_true]
  rcases before_or_same_or_before first second with h | h | h
  · exact .inl (Ordering.isLE_of_eq_lt h)
  · exact .inl (Ordering.isLE_of_eq_eq (compare_eq_iff_same.2 h))
  · exact .inr (Ordering.isLE_of_eq_lt h)

theorem Before.trans_le {first second third : Path} (h : first.Before second)
    (h' : second.le third = true) :
    first.Before third :=
  TransCmp.lt_of_lt_of_isLE h h'

theorem le_iff {first second : Path} :
    first.le second = true ↔
      first.Before second ∨ first.same second = true := by
  rw [← compare_eq_iff_same, Before, le, Ordering.isLE_iff_eq_lt_or_eq_eq]

/-! ## Sorting -/

theorem pairwise_mergeSort_compare {α : Type} {compare : α → α → Ordering}
    [TransCmp compare] (items : List α) :
    (items.mergeSort fun first second => (compare first second).isLE).Pairwise
      fun first second => (compare first second).isLE = true := by
  refine List.pairwise_mergeSort (fun _ _ _ => TransCmp.isLE_trans)
    (fun first second => ?_) items
  cases h : compare first second with
  | lt => rfl
  | eq => rfl
  | gt => simp [OrientedCmp.lt_of_gt h]

theorem sort_pairwise (paths : List Path) :
    (sort paths).Pairwise fun first second => first.le second = true :=
  List.pairwise_mergeSort le_trans le_total paths

@[simp] theorem mem_sort {path : Path} {paths : List Path} :
    path ∈ sort paths ↔ path ∈ paths :=
  List.mem_mergeSort

end ImportAtlas.Path
