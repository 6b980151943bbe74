import ImportAtlas.Module.Item
import Mathlib.Data.List.DropRight

/-!
# The text of literals

A literal is written as some text between two quotes of one kind.  What is read
off it is this text without the quotes, of whatever kind, that stand at its own
ends.  So the value of a literal is the text between its quotes exactly if this
text neither begins nor ends with a quote.
-/

namespace ImportAtlas

open Grammar (SourceTree)

namespace ModuleItem

/-! ## Quotes at the ends of a text -/

def Bare (text : List Char) : Prop :=
  text.head?.any isQuote = false ∧ text.getLast?.any isQuote = false

instance (text : List Char) : Decidable (Bare text) :=
  inferInstanceAs (Decidable (_ ∧ _))

theorem bare_of_forall {text : List Char} (h : ∀ c ∈ text, isQuote c = false) :
    Bare text := by
  constructor
  · cases hhead : text.head? with
    | none => rfl
    | some c => exact h c (List.mem_of_head? hhead)
  · cases hlast : text.getLast? with
    | none => rfl
    | some c => exact h c (List.mem_of_getLast? hlast)

/-- Whether a value is what is left of a text without the quotes at both of its
ends. -/
def Stripped (text value : List Char) : Prop :=
  ∃ opening closing, text = opening ++ value ++ closing ∧
    opening.all isQuote = true ∧ closing.all isQuote = true ∧
    Bare value

theorem stripped_self_iff {text : List Char} :
    Stripped text text ↔ Bare text := by
  constructor
  · rintro ⟨-, -, -, -, -, hbare⟩
    exact hbare
  · intro hbare
    exact ⟨[], [], by simp, rfl, rfl, hbare⟩

theorem Stripped.quoted {text value : List Char} (h : Stripped text value)
    {quote : Char} (hquote : isQuote quote = true) :
    Stripped (quote :: (text ++ [quote])) value := by
  obtain ⟨opening, closing, rfl, hopening, hclosing, hbare⟩ := h
  exact ⟨quote :: opening, closing ++ [quote], by simp,
    by simp [hquote, hopening], by simp [hquote, hclosing], hbare⟩

theorem unquote_eq_rdropWhile (text : List Char) :
    unquote text = (text.dropWhile isQuote).rdropWhile isQuote := rfl

private theorem bare_unquote (text : List Char) : Bare (unquote text) := by
  rw [unquote_eq_rdropWhile]
  constructor
  · obtain ⟨rest, hrest⟩ :=
      List.rdropWhile_prefix isQuote (text.dropWhile isQuote)
    have hhead := List.head?_dropWhile_not isQuote text
    rw [← hrest] at hhead
    cases hvalue : (text.dropWhile isQuote).rdropWhile isQuote with
    | nil => rfl
    | cons c value => simpa [hvalue] using hhead
  · by_cases hvalue : (text.dropWhile isQuote).rdropWhile isQuote = []
    · rw [hvalue]
      rfl
    · rw [List.getLast?_eq_some_getLast hvalue]
      simpa using List.rdropWhile_last_not isQuote _ hvalue

theorem stripped_unquote (text : List Char) : Stripped text (unquote text) := by
  refine ⟨text.takeWhile isQuote, (text.dropWhile isQuote).rtakeWhile isQuote,
    ?_, ?_, ?_, bare_unquote text⟩
  · rw [unquote_eq_rdropWhile, List.append_assoc,
      List.rdropWhile_append_rtakeWhile, List.takeWhile_append_dropWhile]
  · exact List.all_takeWhile
  · exact List.all_eq_true.2 fun c hc => List.mem_rtakeWhile_imp hc

private theorem rdropWhile_append_quotes {value closing : List Char}
    (hclosing : closing.all isQuote = true) :
    (value ++ closing).rdropWhile isQuote = value.rdropWhile isQuote := by
  induction closing using List.reverseRecOn with
  | nil => simp
  | append_singleton closing c ih =>
      simp only [List.all_append, List.all_cons, List.all_nil, Bool.and_true,
        Bool.and_eq_true] at hclosing
      rw [← List.append_assoc,
        List.rdropWhile_concat_pos isQuote _ _ hclosing.2, ih hclosing.1]

/-- There is only one way to take the quotes off, however many there are. -/
theorem unquote_eq_iff {text value : List Char} :
    unquote text = value ↔ Stripped text value := by
  refine ⟨fun h => h ▸ stripped_unquote text, ?_⟩
  rintro ⟨opening, closing, rfl, hopening, hclosing, hhead, hlast⟩
  rw [unquote_eq_rdropWhile, List.append_assoc,
    List.dropWhile_append_of_pos (List.all_eq_true.1 hopening)]
  cases value with
  | nil =>
      have hnone : closing.dropWhile isQuote = [] :=
        List.dropWhile_eq_nil_iff.2 (List.all_eq_true.1 hclosing)
      rw [List.nil_append, hnone, List.rdropWhile_nil]
  | cons c value =>
      have hc : ¬isQuote c = true := by simpa using hhead
      rw [List.cons_append, List.dropWhile_cons_of_neg hc, ← List.cons_append,
        rdropWhile_append_quotes hclosing, List.rdropWhile_eq_self_iff]
      intro hsome
      simpa [List.getLast?_eq_some_getLast hsome] using hlast

/-! ## Literals -/

def isLiteral (tree : SourceTree) : Bool :=
  match tree.kind with
  | .string => true
  | .template => !tree.children.any fun child => child.kind = .substitution
  | _ => false

/-- A literal that is written as the content between two quotes of one kind. -/
structure Written (literal : SourceTree) (content : List Char) : Prop where
  isLiteral : isLiteral literal = true
  quoted : ∃ quote, isQuote quote = true ∧
    literal.text = quote :: (content ++ [quote])

theorem Written.stripped {literal : SourceTree} {content value : List Char}
    (h : Written literal content) (hvalue : Stripped literal.text value) :
    Stripped content value := by
  obtain ⟨quote, hquote, htext⟩ := h.quoted
  have hsame : unquote literal.text = unquote content := by
    rw [htext]
    exact unquote_eq_iff.2 ((stripped_unquote content).quoted hquote)
  rw [← unquote_eq_iff, ← hsame]
  exact unquote_eq_iff.2 hvalue

theorem Stripped.eq_iff {text value : List Char} (h : Stripped text value) :
    value = text ↔ Bare text := by
  rw [← unquote_eq_iff] at h
  rw [← h, unquote_eq_iff, stripped_self_iff]

end ModuleItem

end ImportAtlas
