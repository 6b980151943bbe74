import ImportAtlas.Module.ScriptBlock

/-!
# Script elements of markup

A markup text is a row of script elements, each after a gap in which none
opens, and a rest in which none is complete.  No other row of elements makes up
the same text.  The script blocks are the bodies of these elements, and their
lines are counted from the beginning of the text.
-/

namespace ImportAtlas

/-! ## First occurrences -/

namespace ScriptBlock

variable {pattern text before after : List Char}

theorem splitAt?_eq_none (hpattern : pattern ≠ []) :
    splitAt? pattern text = none ↔ ¬pattern <:+: text := by
  induction text with
  | nil => simp [splitAt?, hpattern]
  | cons c text ih =>
      by_cases hhere : pattern <+: c :: text
      · simp [splitAt?, hhere, hhere.isInfix]
      · simp [splitAt?, hhere, ih, List.infix_cons_iff]

theorem contains_iff (hpattern : pattern ≠ []) :
    contains pattern text = true ↔ pattern <:+: text := by
  rw [contains, Option.isSome_iff_ne_none, ne_eq, splitAt?_eq_none hpattern,
    Decidable.not_not]

theorem eq_append_of_splitAt?
    (h : splitAt? pattern text = some (before, after)) :
    text = before ++ (pattern ++ after) := by
  induction text generalizing before with
  | nil => simp_all [splitAt?]
  | cons c text ih =>
      rw [splitAt?] at h
      split at h
      · rename_i hhere
        obtain ⟨more, hmore⟩ := List.isPrefixOf_iff_prefix.1 hhere
        obtain ⟨rfl, rfl⟩ := Prod.mk.inj (Option.some.inj h)
        simp [← hmore]
      · obtain ⟨⟨first, last⟩, hsplit, heq⟩ := Option.map_eq_some_iff.1 h
        obtain ⟨rfl, rfl⟩ := Prod.mk.inj heq
        rw [ih hsplit, List.cons_append]

theorem not_infix_of_splitAt? (hpattern : pattern ≠ [])
    (h : splitAt? pattern text = some (before, after)) :
    ¬pattern <:+: before := by
  induction text generalizing before with
  | nil => simp_all [splitAt?]
  | cons c text ih =>
      rw [splitAt?] at h
      split at h
      · obtain ⟨rfl, -⟩ := Prod.mk.inj (Option.some.inj h)
        simpa using hpattern
      · rename_i hhere
        obtain ⟨⟨first, last⟩, hsplit, heq⟩ := Option.map_eq_some_iff.1 h
        obtain ⟨rfl, rfl⟩ := Prod.mk.inj heq
        rw [List.infix_cons_iff]
        rintro (hfirst | hlater)
        · -- what stands before the match is a beginning of the text
          have hwhole : pattern <+: c :: text := by
            rw [eq_append_of_splitAt? hsplit, ← List.cons_append]
            exact hfirst.trans (List.prefix_append _ _)
          exact hhere (List.isPrefixOf_iff_prefix.2 hwhole)
        · exact ih hsplit hlater

/-- A pattern whose first letter does not come again in it overlaps itself
nowhere. -/
theorem splitAt?_append {c : Char} {letters : List Char} (hc : c ∉ letters)
    (hbefore : ¬c :: letters <:+: before) (after : List Char) :
    splitAt? (c :: letters) (before ++ (c :: letters ++ after)) =
      some (before, after) := by
  induction before with
  | nil => simp [splitAt?]
  | cons d before ih =>
      have hlater : ¬c :: letters <:+: before :=
        fun h => hbefore (List.infix_cons h)
      have hhere : ¬c :: letters <+: d ::
          (before ++ (c :: letters ++ after)) := by
        rintro ⟨more, hmore⟩
        rw [← List.cons_append, List.append_eq_append_iff] at hmore
        rcases hmore with ⟨between, hbetween, -⟩ | ⟨between, hbetween, hrest⟩
        · exact hbefore ⟨[], between, by simpa using hbetween.symm⟩
        · cases between with
          | nil => exact hbefore ⟨[], [], by simpa using hbetween⟩
          | cons e between =>
              -- the second copy would begin inside the first one
              obtain ⟨-, hletters⟩ := List.cons.inj hbetween
              obtain ⟨rfl, -⟩ := List.cons.inj hrest
              exact hc (by rw [hletters]; simp)
      rw [List.cons_append, splitAt?, if_neg (by simpa using hhere), ih hlater,
        Option.map_some]

private theorem infix_of_infix_append {c : Char}
    {letters first second : List Char} (hc : c ∉ first)
    (h : c :: letters <:+: first ++ second) : c :: letters <:+: second := by
  induction first with
  | nil => exact h
  | cons d first ih =>
      rw [List.mem_cons, not_or] at hc
      rw [List.cons_append, List.infix_cons_iff, List.cons_prefix_cons] at h
      rcases h with ⟨hcd, -⟩ | hlater
      · exact absurd hcd hc.1
      · exact ih hc.2 hlater

private theorem infix_of_infix_concat {c d : Char} {letters first : List Char}
    (hd : d ∉ c :: letters) (h : c :: letters <:+: first ++ [d]) :
    c :: letters <:+: first := by
  rw [← List.reverse_infix, List.reverse_concat, List.infix_cons_iff,
    List.reverse_infix] at h
  refine h.resolve_left fun hfirst => hd ?_
  rw [← List.mem_reverse]
  obtain ⟨e, others, heq⟩ :=
    List.exists_cons_of_ne_nil (by simp : (c :: letters).reverse ≠ [])
  rw [heq, List.cons_prefix_cons] at hfirst
  rw [heq, hfirst.1]
  exact List.mem_cons_self

end ScriptBlock

open ScriptBlock
  (splitAt? openingMark closingMark lineBreaks dialectOf contains)

theorem splitAt?_openingMark {before : List Char} (h : ¬openingMark <:+: before)
    (after : List Char) :
    splitAt? openingMark (before ++ (openingMark ++ after)) =
      some (before, after) :=
  ScriptBlock.splitAt?_append (by decide) h after

theorem splitAt?_closingMark {before : List Char} (h : ¬closingMark <:+: before)
    (after : List Char) :
    splitAt? closingMark (before ++ (closingMark ++ after)) =
      some (before, after) :=
  ScriptBlock.splitAt?_append (by decide) h after

theorem bracket_infix_iff {text : List Char} :
    ['>'] <:+: text ↔ '>' ∈ text := by
  constructor
  · exact fun h => h.subset List.mem_cons_self
  · intro h
    obtain ⟨first, last, rfl⟩ := List.append_of_mem h
    exact ⟨first, last, by simp⟩

theorem splitAt?_bracket {before : List Char} (h : '>' ∉ before)
    (after : List Char) :
    splitAt? ['>'] (before ++ '>' :: after) = some (before, after) :=
  ScriptBlock.splitAt?_append (by simp) (by rwa [bracket_infix_iff]) after

/-! ## Elements -/

/-- A complete script element, with the gap between the element before it and
its own tag. -/
@[ext] structure ScriptElement where
  gap : List Char
  attributes : List Char
  body : List Char
  gap_clear : ¬openingMark <:+: gap
  attributes_clear : '>' ∉ attributes
  body_clear : ¬closingMark <:+: body

namespace ScriptElement

variable {element other : ScriptElement} {more more' : List Char}

def tag (element : ScriptElement) : List Char :=
  openingMark ++ element.attributes ++ ['>']

def text (element : ScriptElement) : List Char :=
  element.gap ++ element.tag ++ element.body ++ closingMark

theorem text_append (element : ScriptElement) (more : List Char) :
    element.text ++ more =
      element.gap ++
        (openingMark ++ (element.attributes ++
          '>' :: (element.body ++ (closingMark ++ more)))) := by
  simp [text, tag]

theorem length_text_pos (element : ScriptElement) :
    0 < element.text.length := by
  simp only [text, tag, List.length_append, List.length_singleton]
  omega

private theorem text_append_inj (h : element.text ++ more =
      other.text ++ more') : element = other ∧ more = more' := by
  rw [text_append, text_append] at h
  have hopened := congrArg (splitAt? openingMark) h
  rw [splitAt?_openingMark element.gap_clear,
    splitAt?_openingMark other.gap_clear, Option.some.injEq, Prod.mk.injEq]
      at hopened
  obtain ⟨hgap, hopened⟩ := hopened
  have hended := congrArg (splitAt? ['>']) hopened
  rw [splitAt?_bracket element.attributes_clear,
    splitAt?_bracket other.attributes_clear, Option.some.injEq, Prod.mk.injEq]
      at hended
  obtain ⟨hattributes, hended⟩ := hended
  have hclosed := congrArg (splitAt? closingMark) hended
  rw [splitAt?_closingMark element.body_clear,
    splitAt?_closingMark other.body_clear, Option.some.injEq, Prod.mk.injEq]
      at hclosed
  exact ⟨ScriptElement.ext hgap hattributes hclosed.1, hclosed.2⟩

theorem contains_tag (element : ScriptElement) {pattern : List Char}
    (hpattern : pattern.head? = some 'l') (hbracket : '>' ∉ pattern) :
    contains pattern element.tag = contains pattern element.attributes := by
  obtain ⟨letters, rfl⟩ := List.head?_eq_some_iff.1 hpattern
  rw [Bool.eq_iff_iff, ScriptBlock.contains_iff (by simp),
    ScriptBlock.contains_iff (by simp)]
  constructor
  · intro h
    rw [tag, List.append_assoc] at h
    exact ScriptBlock.infix_of_infix_concat hbracket
      (ScriptBlock.infix_of_infix_append (by decide) h)
  · rintro ⟨first, last, hattributes⟩
    exact ⟨openingMark ++ first, last ++ ['>'], by simp [tag, ← hattributes]⟩

private theorem dialectOf_tag (element : ScriptElement) :
    dialectOf element.tag = dialectOf element.attributes := by
  rw [dialectOf, dialectOf, contains_tag element (by decide) (by decide),
    contains_tag element (by decide) (by decide),
    contains_tag element (by decide) (by decide),
    contains_tag element (by decide) (by decide)]

def block (before : List Char) (element : ScriptElement) : ScriptBlock :=
  ⟨element.body, dialectOf element.tag,
    lineBreaks (before ++ element.gap ++ element.tag)⟩

def blocks (before : List Char) : List ScriptElement → List ScriptBlock
  | [] => []
  | element :: elements =>
    element.block before :: blocks (before ++ element.text) elements

theorem next?_text_append (before more : List Char) (element : ScriptElement) :
    ScriptBlock.next? (lineBreaks before) (element.text ++ more) =
      some (element.block before, lineBreaks (before ++ element.text),
        more) := by
  have hmarks : lineBreaks openingMark = 0 ∧ lineBreaks closingMark = 0 := by
    decide
  rw [text_append, ScriptBlock.next?, splitAt?_openingMark element.gap_clear]
  simp only [splitAt?_bracket element.attributes_clear,
    splitAt?_closingMark element.body_clear]
  rw [block, dialectOf_tag]
  simp only [text, tag, lineBreaks, List.count_append] at hmarks ⊢
  simp [hmarks]
  omega

end ScriptElement

/-- Whether no element is complete: none opens, or the first one has a tag or a
body that does not end. -/
def Unfinished (rest : List Char) : Prop :=
  ¬openingMark <:+: rest ∨
    ∃ before after, rest = before ++ (openingMark ++ after) ∧
      ¬openingMark <:+: before ∧
      ('>' ∉ after ∨ ∃ attributes body, after = attributes ++ '>' :: body ∧
        '>' ∉ attributes ∧ ¬closingMark <:+: body)

theorem next?_of_unfinished {text : List Char} (h : Unfinished text)
    (lines : Nat) :
    ScriptBlock.next? lines text = none := by
  rcases h
    with hclear | ⟨before, after, rfl, hbefore,
      htag | ⟨attributes, body, rfl, hattributes, hbody⟩⟩
  · rw [ScriptBlock.next?, (ScriptBlock.splitAt?_eq_none (by decide)).2 hclear]
  · rw [← bracket_infix_iff, ← ScriptBlock.splitAt?_eq_none (by decide)] at htag
    rw [ScriptBlock.next?, splitAt?_openingMark hbefore]
    simp only [htag]
  · rw [← ScriptBlock.splitAt?_eq_none (by decide)] at hbody
    rw [ScriptBlock.next?, splitAt?_openingMark hbefore]
    simp only [splitAt?_bracket hattributes, hbody]

private theorem exists_element_or_unfinished (text : List Char) :
    (∃ element : ScriptElement, ∃ more, text = element.text ++ more) ∨
      Unfinished text := by
  cases hopened : splitAt? openingMark text with
  | none =>
    exact .inr (.inl ((ScriptBlock.splitAt?_eq_none (by decide)).1 hopened))
  | some opened =>
      obtain ⟨gap, opened⟩ := opened
      have hgap := ScriptBlock.not_infix_of_splitAt? (by decide) hopened
      obtain rfl := ScriptBlock.eq_append_of_splitAt? hopened
      cases hended : splitAt? ['>'] opened with
      | none =>
          rw [ScriptBlock.splitAt?_eq_none (by decide), bracket_infix_iff]
            at hended
          exact .inr (.inr ⟨gap, opened, rfl, hgap, .inl hended⟩)
      | some ended =>
          obtain ⟨attributes, ended⟩ := ended
          have hattributes :=
            ScriptBlock.not_infix_of_splitAt? (by decide) hended
          rw [bracket_infix_iff] at hattributes
          obtain rfl := ScriptBlock.eq_append_of_splitAt? hended
          cases hclosed : splitAt? closingMark ended with
          | none =>
              rw [ScriptBlock.splitAt?_eq_none (by decide)] at hclosed
              exact .inr (.inr ⟨gap, _, rfl, hgap,
                .inr ⟨attributes, ended, rfl, hattributes, hclosed⟩⟩)
          | some closed =>
              obtain ⟨body, more⟩ := closed
              have hbody :=
                ScriptBlock.not_infix_of_splitAt? (by decide) hclosed
              obtain rfl := ScriptBlock.eq_append_of_splitAt? hclosed
              refine .inl ⟨⟨gap, attributes, body, hgap, hattributes, hbody⟩,
                more, ?_⟩
              rw [ScriptElement.text_append]
              rfl

theorem not_unfinished_text_append (element : ScriptElement)
    (more : List Char) :
    ¬Unfinished (element.text ++ more) := by
  intro h
  have hnone := next?_of_unfinished h (lineBreaks [])
  rw [ScriptElement.next?_text_append] at hnone
  contradiction

/-! ## Rows of elements -/

structure MadeOf (source : List Char) (elements : List ScriptElement)
    (rest : List Char) : Prop where
  text : source = elements.flatMap ScriptElement.text ++ rest
  unfinished : Unfinished rest

theorem exists_madeOf (source : List Char) :
    ∃ elements rest, MadeOf source elements rest := by
  -- every element takes some of the text
  induction hlength : source.length using
    Nat.strongRecOn generalizing source with
  | ind length ih =>
      rcases exists_element_or_unfinished source
        with ⟨element, more, rfl⟩ | hunfinished
      · have hshorter : more.length < length := by
          have hpositive := element.length_text_pos
          rw [List.length_append] at hlength
          omega
        obtain ⟨elements, rest, hmore⟩ := ih more.length hshorter more rfl
        exact ⟨element :: elements, rest, by rw [hmore.text]; simp,
          hmore.unfinished⟩
      · exact ⟨[], source, rfl, hunfinished⟩

theorem MadeOf.unique {source rest rest' : List Char}
    {elements elements' : List ScriptElement}
    (h : MadeOf source elements rest) (h' : MadeOf source elements' rest') :
    elements' = elements ∧ rest' = rest := by
  obtain ⟨hsource, hrest⟩ := h
  obtain ⟨hsource', hrest'⟩ := h'
  rw [hsource] at hsource'
  clear hsource source
  induction elements generalizing elements' with
  | nil =>
      cases elements' with
      | nil => exact ⟨rfl, hsource'.symm⟩
      | cons element' elements' =>
          rw [List.flatMap_nil, List.nil_append, List.flatMap_cons,
            List.append_assoc] at hsource'
          exact absurd (hsource' ▸ hrest) (not_unfinished_text_append _ _)
  | cons element elements ih =>
      cases elements' with
      | nil =>
          rw [List.flatMap_nil, List.nil_append, List.flatMap_cons,
            List.append_assoc] at hsource'
          exact absurd (hsource' ▸ hrest') (not_unfinished_text_append _ _)
      | cons element' elements' =>
          rw [List.flatMap_cons, List.flatMap_cons, List.append_assoc,
            List.append_assoc] at hsource'
          obtain ⟨rfl, hmore⟩ := ScriptElement.text_append_inj hsource'
          obtain ⟨rfl, rfl⟩ := ih hmore
          exact ⟨rfl, rfl⟩

/-! ## Blocks -/

private theorem allFrom_eq_blocks {rest : List Char} (hrest : Unfinished rest)
    (elements : List ScriptElement) {budget : List Char} (before : List Char)
    (hbudget : (elements.flatMap ScriptElement.text ++ rest).length ≤
      budget.length) :
    ScriptBlock.allFrom budget (lineBreaks before)
      (elements.flatMap ScriptElement.text ++ rest) =
      ScriptElement.blocks before elements := by
  induction elements generalizing budget before with
  | nil =>
    cases budget <;>
      simp [ScriptBlock.allFrom, ScriptElement.blocks,
        next?_of_unfinished hrest]
  | cons element elements ih =>
      have hpositive := element.length_text_pos
      rw [List.flatMap_cons, List.append_assoc] at hbudget ⊢
      cases budget with
      | nil =>
          rw [List.length_append, List.length_nil] at hbudget
          omega
      | cons c budget =>
          rw [List.length_append, List.length_cons] at hbudget
          rw [ScriptBlock.allFrom, ScriptElement.next?_text_append,
            ScriptElement.blocks]
          simp only
          rw [ih (before ++ element.text) (by omega)]

theorem all_eq_blocks {source rest : List Char} {elements : List ScriptElement}
    (h : MadeOf source elements rest) :
    ScriptBlock.all source = ScriptElement.blocks [] elements := by
  rw [ScriptBlock.all, h.text]
  exact allFrom_eq_blocks h.unfinished elements [] (Nat.le_refl _)

private theorem blocks_append (before : List Char)
    (first second : List ScriptElement) :
    ScriptElement.blocks before (first ++ second) =
      ScriptElement.blocks before first ++
        ScriptElement.blocks (before ++ first.flatMap ScriptElement.text)
          second := by
  induction first generalizing before with
  | nil => simp [ScriptElement.blocks]
  | cons element first ih => simp [ScriptElement.blocks, ih]

theorem length_blocks (before : List Char) (elements : List ScriptElement) :
    (ScriptElement.blocks before elements).length = elements.length := by
  induction elements generalizing before with
  | nil => rfl
  | cons element elements ih => simp [ScriptElement.blocks, ih]

/--
The script blocks are the bodies of the only row of elements that makes up the
text, each with the dialect of its tag and the number of lines before it, so
that lines inside a body are counted on from there.
-/
theorem script_blocks_partition_markup (source : List Char) :
    ∃ elements rest, MadeOf source elements rest ∧
      (∀ elements' rest', MadeOf source elements' rest' →
        elements' = elements ∧ rest' = rest) ∧
      (ScriptBlock.all source).length = elements.length ∧
      ∀ before element after, elements = before ++ element :: after →
        ∃ block, (ScriptBlock.all source)[before.length]? = some block ∧
          block.body = element.body ∧
          block.dialect = dialectOf element.tag ∧
          block.lineOffset = lineBreaks (before.flatMap ScriptElement.text ++
            element.gap ++ element.tag) ∧
          ∀ upto later, element.body = upto ++ later →
            block.lineOffset + (lineBreaks upto + 1) =
              lineBreaks (before.flatMap ScriptElement.text ++ element.gap ++
                element.tag ++ upto) + 1 := by
  obtain ⟨elements, rest, hsource⟩ := exists_madeOf source
  refine ⟨elements, rest, hsource, fun _ _ hother => hsource.unique hother,
    ?_, ?_⟩
  · rw [all_eq_blocks hsource, length_blocks]
  rintro before element after rfl
  refine ⟨element.block (before.flatMap ScriptElement.text), ?_, rfl,
    rfl, rfl, ?_⟩
  · rw [all_eq_blocks hsource, blocks_append,
      List.getElem?_append_right (Nat.le_of_eq (length_blocks _ _)),
      length_blocks]
    simp [ScriptElement.blocks]
  · rintro upto later -
    simp only [ScriptElement.block, lineBreaks, List.count_append]
    omega

end ImportAtlas
