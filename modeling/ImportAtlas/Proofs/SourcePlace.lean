import ImportAtlas.Source.Cursor
import Mathlib.Data.List.DropRight

/-!
# Places in a text

The place after the first part of a text tells how many lines and bytes this
part has.  A reader that only moves forward from the beginning of a text stays
at such places.
-/

namespace ImportAtlas.Source

def lastLine (text : List Char) : List Char :=
  text.rtakeWhile (· != '\n')

def columnAfter (text : List Char) : Nat :=
  (String.ofList (lastLine text)).utf8ByteSize

private theorem lastLine_concat_break (text : List Char) :
    lastLine (text ++ ['\n']) = [] :=
  List.rtakeWhile_concat_neg _ _ _ (by simp)

private theorem lastLine_concat {c : Char} (hc : c ≠ '\n') (text : List Char) :
    lastLine (text ++ [c]) = lastLine text ++ [c] :=
  List.rtakeWhile_concat_pos _ _ _ (by simpa using hc)

theorem columnAfter_concat_break (text : List Char) :
    columnAfter (text ++ ['\n']) = 0 := by
  rw [columnAfter, lastLine_concat_break]
  rfl

theorem columnAfter_concat {c : Char} (hc : c ≠ '\n') (text : List Char) :
    columnAfter (text ++ [c]) = columnAfter text + c.utf8Size := by
  rw [columnAfter, lastLine_concat hc, String.ofList_append,
    String.utf8ByteSize_append]
  simp [columnAfter]

/-- Only the second text counts if it breaks a line, and both if not. -/
theorem columnAfter_append (first second : List Char) :
    columnAfter (first ++ second) =
      if '\n' ∈ second then columnAfter second
      else columnAfter first + columnAfter second := by
  induction second using List.reverseRecOn with
  | nil => simp [columnAfter, lastLine]
  | append_singleton second c ih =>
      rw [← List.append_assoc]
      by_cases hc : c = '\n'
      · rw [hc, columnAfter_concat_break, columnAfter_concat_break,
          if_pos (by simp)]
      · rw [columnAfter_concat hc, columnAfter_concat hc, ih]
        have hc' : '\n' ≠ c := Ne.symm hc
        simp only [List.mem_append, List.mem_singleton, hc', or_false]
        split
        · rfl
        · omega

namespace Cursor

def after (before rest : List Char) : Cursor :=
  ⟨rest, before.length, before.count '\n', columnAfter before⟩

theorem next_after (before : List Char) (c : Char) (rest : List Char) :
    (after before (c :: rest)).next = after (before ++ [c]) rest := by
  by_cases hc : c = '\n'
  · subst hc
    simp [next, after, columnAfter_concat_break]
  · rw [next]
    simp [after, columnAfter_concat hc, hc]

theorem advance_after (before first rest : List Char) :
    (after before (first ++ rest)).advance first.length =
      after (before ++ first) rest := by
  induction first generalizing before with
  | nil => simp [advance]
  | cons c first ih =>
      rw [List.length_cons, advance, List.cons_append, next_after, ih,
        List.append_assoc, List.singleton_append]

theorem textUntil_after (before middle rest : List Char) :
    (after before (middle ++ rest)).textUntil (after (before ++ middle) rest) =
      middle := by
  simp [textUntil, after]

/-! ## Places of one text -/

def IsIn (text : List Char) (cursor : Cursor) : Prop :=
  ∃ before rest, text = before ++ rest ∧ cursor = after before rest

theorem isIn_start (text : List Char) : (start text).IsIn text :=
  ⟨[], text, rfl, rfl⟩

theorem IsIn.next {text : List Char} {cursor : Cursor} (h : cursor.IsIn text) :
    cursor.next.IsIn text := by
  obtain ⟨before, rest, rfl, rfl⟩ := h
  cases rest with
  | nil => exact ⟨before, [], rfl, rfl⟩
  | cons c rest =>
    exact ⟨before ++ [c], rest, by simp, next_after before c rest⟩

theorem IsIn.advance {text : List Char} {cursor : Cursor} (h : cursor.IsIn text)
    (count : Nat) :
    (cursor.advance count).IsIn text := by
  induction count generalizing cursor with
  | zero => exact h
  | succ count ih => exact ih h.next

end Cursor

end ImportAtlas.Source
