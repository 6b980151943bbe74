import Mathlib.Data.Finset.Card
import Mathlib.Data.List.Induction

/-!
# Lists with keys

Items with one key count as one, and the first of them stands for all.  The
first appearances of a list have different keys, all keys of the list, and the
order of the list.
-/

namespace ImportAtlas

variable {α κ : Type} {key : α → κ}

/-! ## Different keys -/

theorem nodup_keys_filterMap {β : Type} {items : List α}
    (hkeys : (items.map key).Nodup) {make? : α → Option β} {madeKey : β → κ}
    (hmade : ∀ item made, make? item = some made → madeKey made = key item) :
    ((items.filterMap make?).map madeKey).Nodup := by
  rw [List.Nodup, List.pairwise_map, List.pairwise_filterMap]
  refine (List.pairwise_map.1 hkeys).imp ?_
  intro first second hne made hfirst other hsecond
  rw [hmade first made hfirst, hmade second other hsecond]
  exact hne

variable [DecidableEq κ]

theorem find?_key_eq_some {items : List α} (hkeys : (items.map key).Nodup)
    {k : κ} {item : α} :
    (items.find? fun other => key other = k) = some item ↔
      item ∈ items ∧ key item = k := by
  constructor
  · intro h
    exact ⟨List.mem_of_find?_eq_some h, by simpa using List.find?_some h⟩
  · rintro ⟨hmem, rfl⟩
    have hfound : (items.find? fun other => key other = key item).isSome :=
      List.find?_isSome.2 ⟨item, hmem, by simp⟩
    obtain ⟨other, hother⟩ := Option.isSome_iff_exists.1 hfound
    have hsame : key other = key item := by simpa using List.find?_some hother
    rw [hother, List.inj_on_of_nodup_map hkeys
      (List.mem_of_find?_eq_some hother) hmem hsame]

/-! ## First appearances -/

/-- The items that differ in their keys from all items before them. -/
def firstBy (key : α → κ) : List α → List α
  | [] => []
  | item :: rest =>
    item :: (firstBy key rest).filter fun other => key other ≠ key item

theorem mem_keys_firstBy {items : List α} {k : κ} :
    k ∈ (firstBy key items).map key ↔ k ∈ items.map key := by
  induction items with
  | nil => rfl
  | cons first rest ih =>
      simp only [List.mem_map] at ih
      by_cases hfirst : k = key first
      · simp [firstBy, hfirst]
      · have hother : key first ≠ k := fun h => hfirst h.symm
        simp only [firstBy, List.map_cons, List.mem_cons, hfirst, false_or,
          List.mem_map, List.mem_filter, decide_eq_true_eq, ← ih]
        constructor
        · rintro ⟨other, ⟨hmem, -⟩, hkey⟩
          exact ⟨other, hmem, hkey⟩
        · rintro ⟨other, hmem, rfl⟩
          exact ⟨other, ⟨hmem, hfirst⟩, rfl⟩

theorem nodup_keys_firstBy (key : α → κ) (items : List α) :
    ((firstBy key items).map key).Nodup := by
  induction items with
  | nil => exact List.nodup_nil
  | cons first rest ih =>
      rw [firstBy, List.map_cons, List.nodup_cons]
      constructor
      · simp
      · exact ih.sublist (List.filter_sublist.map key)

theorem length_firstBy (key : α → κ) (items : List α) :
    (firstBy key items).length = (items.map key).toFinset.card := by
  have hkeys : ((firstBy key items).map key).toFinset =
      (items.map key).toFinset := by
    ext k
    rw [List.mem_toFinset, List.mem_toFinset, mem_keys_firstBy]
  rw [← hkeys, List.toFinset_card_of_nodup (nodup_keys_firstBy key items),
    List.length_map]

theorem find?_firstBy (key : α → κ) (items : List α) (k : κ) :
    ((firstBy key items).find? fun item => key item = k) =
      items.find? fun item => key item = k := by
  induction items with
  | nil => rfl
  | cons first rest ih =>
      by_cases hfirst : key first = k
      · simp [firstBy, hfirst]
      · rw [firstBy, List.find?_cons_of_neg (by simpa using hfirst),
          List.find?_cons_of_neg (by simpa using hfirst),
          ← ih, List.find?_filter]
        congr 1
        funext other
        simp only [decide_eq_true_eq, decide_eq_decide]
        exact ⟨And.right, fun h =>
          ⟨fun hother => hfirst (hother.symm.trans h), h⟩⟩

theorem mem_firstBy {items : List α} {item : α} :
    item ∈ firstBy key items ↔
      (items.find? fun other => key other = key item) = some item := by
  rw [← find?_firstBy, find?_key_eq_some (nodup_keys_firstBy key items),
    and_iff_left rfl]

theorem firstBy_concat (key : α → κ) (items : List α) (item : α) :
    firstBy key (items ++ [item]) =
      if key item ∈ items.map key then firstBy key items
      else firstBy key items ++ [item] := by
  induction items with
  | nil => simp [firstBy]
  | cons first rest ih =>
      rw [List.cons_append, firstBy, ih, firstBy]
      by_cases hfirst : key item = key first
      · split <;> simp [hfirst]
      · split
        · rename_i hrest
          have hold : key item ∈ (first :: rest).map key :=
            List.mem_cons_of_mem _ hrest
          rw [if_pos hold]
        · rename_i hrest
          have hnew : key item ∉ (first :: rest).map key := by
            simpa [hfirst] using hrest
          rw [if_neg hnew]
          simp [hfirst]

theorem firstBy_append (key : α → κ) (first second : List α) :
    firstBy key (first ++ second) =
      firstBy key first ++ (firstBy key second).filter fun item =>
        key item ∉ first.map key := by
  induction first with
  | nil => simp [firstBy]
  | cons item first ih =>
      rw [List.cons_append, firstBy, ih, firstBy, List.filter_append,
        List.filter_filter, List.cons_append]
      simp [not_or]

theorem firstBy_sublist (key : α → κ) (items : List α) :
    (firstBy key items).Sublist items := by
  induction items with
  | nil => exact .slnil
  | cons first rest ih => exact (List.filter_sublist.trans ih).cons_cons first

theorem firstBy_eq_self {items : List α} (hkeys : (items.map key).Nodup) :
    firstBy key items = items := by
  refine (firstBy_sublist key items).eq_of_length ?_
  rw [length_firstBy, List.toFinset_card_of_nodup hkeys, List.length_map]

end ImportAtlas
