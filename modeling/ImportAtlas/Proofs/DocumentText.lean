import ImportAtlas.Manifest.Strict
import ImportAtlas.Output.Document
import Mathlib.Data.List.Basic

/-!
# Documents can be read off their text

The text of a document is a prefix code: where it ends, and which document it
is of, can be told from any text that starts with it and goes on with something
else than a digit.  Hence different documents have different texts.
-/

namespace ImportAtlas

/-! ## Quoted texts -/

namespace Document

theorem hexDigit?_hexDigit :
    ∀ value < 16, hexDigit? (hexDigit value) = some value := by
  decide

theorem escapeChar_cases (c : Char) :
    (∃ letter, escapeChar c = ['\\', letter] ∧
      Manifest.Strict.escapedChar? letter = some c) ∨
      (c.toNat < 32 ∧
        escapeChar c =
          ['\\', 'u', '0', '0', hexDigit (c.toNat / 16),
            hexDigit (c.toNat % 16)]) ∨
      (32 ≤ c.toNat ∧ c ≠ '"' ∧ c ≠ '\\' ∧ escapeChar c = [c]) := by
  unfold escapeChar
  -- The seven letters, in the order they are tried.
  iterate 7
    split
    · exact .inl ⟨_, rfl, by simp_all [Manifest.Strict.escapedChar?]⟩
  split
  · exact .inr (.inl ⟨by assumption, rfl⟩)
  · exact .inr (.inr ⟨by omega, by assumption, by assumption, rfl⟩)

private theorem readCode?_control (code : Nat) (h : code < 32)
    (rest : List Char) :
    Manifest.Strict.readCode? ('0' :: '0' :: hexDigit (code / 16) ::
      hexDigit (code % 16) :: rest) =
      some (Char.ofNat code, rest) := by
  have hhigh := hexDigit?_hexDigit (code / 16) (by omega)
  have hlow := hexDigit?_hexDigit (code % 16) (by omega)
  have hzero : hexDigit? '0' = some 0 := by decide
  have hdigits : readHexDigits? 4 0 ('0' :: '0' :: hexDigit (code / 16) ::
      hexDigit (code % 16) :: rest) =
      some (code, rest) := by
    simp only [readHexDigits?, hzero, hhigh, hlow, Option.some.injEq,
      Prod.mk.injEq, and_true]
    omega
  have hleading : isLeadingHalf code = false := by
    simp [isLeadingHalf]
    omega
  have htrailing : isTrailingHalf code = false := by
    simp [isTrailingHalf]
    omega
  simp [Manifest.Strict.readCode?, hdigits, hleading, htrailing]

private theorem readEscape?_letter {letter c : Char}
    (h : Manifest.Strict.escapedChar? letter = some c) (rest : List Char) :
    Manifest.Strict.readEscape? (letter :: rest) = some ([c], rest) := by
  unfold Manifest.Strict.readEscape?
  split
  · contradiction
  · rename_i heq
    cases heq
    simp [Manifest.Strict.escapedChar?] at h
  · rename_i heq
    cases heq
    simp [h]

private theorem readWithin?_escapeChar (c unit : Char)
    (budget rest : List Char) :
    Manifest.Strict.quoting.readWithin? '"' (unit :: budget)
      (escapeChar c ++ rest) =
      (Manifest.Strict.quoting.readWithin? '"' budget rest).map fun read =>
        (c :: read.1, read.2) := by
  rcases escapeChar_cases c
    with ⟨letter, hescape, hletter⟩ | ⟨hcontrol, hescape⟩ | ⟨hplain, hquote,
      hslash, hescape⟩
  · rw [hescape]
    simp [Quoting.readWithin?, Manifest.Strict.quoting,
      readEscape?_letter hletter]
  · rw [hescape]
    simp [Quoting.readWithin?, Manifest.Strict.quoting,
      Manifest.Strict.readEscape?, readCode?_control c.toNat hcontrol]
  · rw [hescape]
    simp [Quoting.readWithin?, Manifest.Strict.quoting, hplain, hquote, hslash]

private theorem readWithin?_escaped (chars budget rest : List Char)
    (h : chars.length < budget.length) :
    Manifest.Strict.quoting.readWithin? '"' budget (chars.flatMap escapeChar ++
      '"' :: rest) =
      some (chars, rest) := by
  induction chars generalizing budget with
  | nil =>
      cases budget with
      | nil => simp at h
      | cons unit budget => rfl
  | cons c chars ih =>
      cases budget with
      | nil => simp at h
      | cons unit budget =>
          rw [List.flatMap_cons, List.append_assoc, readWithin?_escapeChar,
            ih budget (by simpa using h)]
          rfl

private theorem length_le_length_escaped (chars : List Char) :
    chars.length ≤ (chars.flatMap escapeChar).length := by
  induction chars with
  | nil => simp
  | cons c chars ih =>
      have hone : 1 ≤ (escapeChar c).length := by
        rcases escapeChar_cases c with ⟨letter, hescape, -⟩ | ⟨-, hescape⟩
          | ⟨-, -, -, hescape⟩ <;> simp [hescape]
      simp only [List.flatMap_cons, List.length_append, List.length_cons]
      omega

theorem toList_quoted (text : String) :
    (quoted text).toList = '"' ::
      (text.toList.flatMap escapeChar ++ ['"']) := by
  simp [quoted]

theorem readKey?_quoted (text : String) (rest : List Char) :
    Manifest.Strict.readKey? ((quoted text).toList ++ rest) =
      some (text, rest) := by
  have hlength := length_le_length_escaped text.toList
  rw [toList_quoted]
  simp only [List.cons_append, List.append_assoc, Manifest.Strict.readKey?,
    Quoting.read?]
  rw [readWithin?_escaped _ _ _ (by
    simp only [List.length_append, List.length_cons]; omega)]
  simp

theorem quoted_append_inj {first second : String} {rest rest' : List Char}
    (h : (quoted first).toList ++ rest = (quoted second).toList ++ rest') :
    first = second ∧ rest = rest' := by
  have hread := readKey?_quoted first rest
  rw [h, readKey?_quoted] at hread
  simpa [eq_comm] using hread

/-! ## Numbers -/

def Stops (rest : List Char) : Prop :=
  ∀ c ∈ rest.head?, c.isDigit = false

theorem isDigit_of_mem_digits {value : Nat} {c : Char}
    (h : c ∈ Nat.toDigits 10 value) : c.isDigit = true :=
  Nat.isDigit_of_mem_toDigits (by omega) (by omega) h

theorem takeWhile_digits (value : Nat) {rest : List Char} (h : Stops rest) :
    (Nat.toDigits 10 value ++ rest).takeWhile Char.isDigit =
      Nat.toDigits 10 value := by
  have hrest : rest.takeWhile Char.isDigit = [] := by
    cases rest with
    | nil => rfl
    | cons c rest => simp [h c rfl]
  rw [List.takeWhile_append_of_pos fun c hc => isDigit_of_mem_digits hc, hrest,
    List.append_nil]

private theorem digits_append_inj {first second : Nat} {rest rest' : List Char}
    (hrest : Stops rest) (hrest' : Stops rest')
    (h : Nat.toDigits 10 first ++ rest = Nat.toDigits 10 second ++ rest') :
    first = second ∧ rest = rest' := by
  have hdigits : Nat.toDigits 10 first = Nat.toDigits 10 second := by
    rw [← takeWhile_digits first hrest, h, takeWhile_digits second hrest']
  constructor
  · rw [← Nat.ofDigitChars_ten_toDigits (n :=
      first), hdigits, Nat.ofDigitChars_ten_toDigits]
  · rw [hdigits] at h
    exact List.append_cancel_left h

/-! ## Brackets -/

def lineStart (level : Nat) : List Char :=
  '\n' :: (indent level).toList

def block (level : Nat) (opening closing : Char) : List (List Char) → List Char
  | [] => [opening, closing]
  | part :: parts =>
    opening :: (lineStart (level + 1) ++ part ++
      parts.flatMap (fun part => ',' :: lineStart (level + 1) ++ part) ++
      lineStart level ++ [closing])

def fieldText (level : Nat) (field : String × Document) : List Char :=
  (quoted field.1).toList ++ [':', ' '] ++ (render level field.2).toList

private theorem toList_renderItems (level : Nat) (items : List Document) :
    (renderItems level items).toList =
      (items.map fun item => (render level item).toList).flatMap fun part =>
        ',' :: lineStart level ++ part := by
  induction items with
  | nil => simp [renderItems]
  | cons item items ih => simp [renderItems, lineStart, ih]

private theorem toList_renderFields (level : Nat)
    (fields : List (String × Document)) :
    (renderFields level fields).toList =
      (fields.map (fieldText level)).flatMap fun part =>
        ',' :: lineStart level ++ part := by
  induction fields with
  | nil => simp [renderFields]
  | cons field fields ih => simp [renderFields, lineStart, fieldText, ih]

@[simp]
theorem toList_render_number (level value : Nat) :
    (render level (.number value)).toList = Nat.toDigits 10 value := by
  simp [render]

@[simp]
theorem toList_render_text (level : Nat) (value : String) :
    (render level (.text value)).toList = (quoted value).toList := by
  simp [render]

@[simp]
theorem toList_render_list (level : Nat) (items : List Document) :
    (render level (.list items)).toList =
      block level '[' ']' (items.map fun item =>
        (render (level + 1) item).toList) := by
  cases items with
  | nil => simp [render, block]
  | cons item items => simp [render, block, lineStart, toList_renderItems]

@[simp]
theorem toList_render_object (level : Nat) (fields : List (String × Document)) :
    (render level (.object fields)).toList =
      block level '\x7b' '\x7d' (fields.map (fieldText (level + 1))) := by
  cases fields with
  | nil => simp [render, block]
  | cons field fields =>
    simp [render, block, lineStart, fieldText, toList_renderFields]

/-! ## Reading a text off what follows -/

/-- A thing whose text gives it away, and where it ends. -/
def Readable {α : Type} (text : α → List Char) (thing : α) : Prop :=
  ∀ other rest rest', Stops rest → Stops rest' →
    text thing ++ rest = text other ++ rest' →
    thing = other ∧ rest = rest'

private theorem stops_lineStart (level : Nat) (rest : List Char) :
    Stops (lineStart level ++ rest) := by
  simp [Stops, lineStart]

section Parts

variable {α : Type} {text : α → List Char}

theorem stops_parts (level : Nat) (parts : List (List Char))
    (rest : List Char) :
    Stops (parts.flatMap (fun part => ',' :: lineStart (level + 1) ++ part) ++
      (lineStart level ++ rest)) := by
  cases parts with
  | nil => exact stops_lineStart level rest
  | cons part parts => simp [Stops]

private theorem parts_append_inj (level : Nat) {things others : List α}
    (hthings : ∀ thing ∈ things, Readable text thing) {rest rest' : List Char}
    (h : (things.map text).flatMap (fun part =>
      ',' :: lineStart (level + 1) ++ part) ++ (lineStart level ++ rest) =
      (others.map text).flatMap
        (fun part => ',' :: lineStart (level + 1) ++ part) ++
        (lineStart level ++ rest')) :
    things = others ∧ rest = rest' := by
  induction things generalizing others with
  | nil =>
      cases others with
      | nil => simpa using h
      | cons other others => simp [lineStart] at h
  | cons thing things ih =>
      cases others with
      | nil => simp [lineStart] at h
      | cons other others =>
          simp only [List.map_cons, List.flatMap_cons, List.cons_append,
            List.append_assoc, List.cons.injEq, true_and,
            List.append_cancel_left_eq] at h
          obtain ⟨rfl, hparts⟩ := hthings thing (by simp)
            other _ _ (stops_parts level _ rest) (stops_parts level _ rest') h
          obtain ⟨rfl, hrest⟩ :=
            ih (fun thing hthing => hthings thing (by simp [hthing])) hparts
          exact ⟨rfl, hrest⟩

theorem block_append_inj (level : Nat) {opening closing : Char}
    (hclosing : closing ≠ '\n') {things others : List α}
    (hthings : ∀ thing ∈ things, Readable text thing) {rest rest' : List Char}
    (h : block level opening closing (things.map text) ++ rest =
      block level opening closing (others.map text) ++ rest') :
        things = others ∧ rest = rest' := by
  cases things with
  | nil =>
      cases others with
      | nil => simpa [block] using h
      | cons other others => simp [block, lineStart, hclosing] at h
  | cons thing things =>
      cases others with
      | nil => simp [block, lineStart, hclosing.symm] at h
      | cons other others =>
          simp only [List.map_cons, block, List.cons_append, List.append_assoc,
            List.cons.injEq, true_and, List.append_cancel_left_eq] at h
          obtain ⟨rfl, hparts⟩ :=
            hthings thing (by simp) other _ _ (stops_parts level _ _)
              (stops_parts level _ _) h
          obtain ⟨rfl, hrest⟩ :=
            parts_append_inj level
              (fun thing hthing => hthings thing (by simp [hthing])) hparts
          exact ⟨rfl, by simpa using hrest⟩

end Parts

private theorem readable_field {level : Nat} {field : String × Document}
    (h : Readable (fun document => (render level document).toList) field.2) :
    Readable (fieldText level) field := by
  intro other rest rest' hrest hrest' heq
  simp only [fieldText, List.append_assoc] at heq
  obtain ⟨hname, hvalue⟩ := quoted_append_inj heq
  obtain ⟨hdocument, hend⟩ :=
    h other.2 rest rest' hrest hrest' (List.append_cancel_left hvalue)
  exact ⟨Prod.ext hname hdocument, hend⟩

/-! ## Documents -/

/-- Induction on documents, with the items of a list and the values of an
object as smaller ones. -/
@[elab_as_elim]
theorem induction {motive : Document → Prop}
    (number : ∀ value, motive (.number value))
    (text : ∀ value, motive (.text value))
    (list : ∀ items, (∀ item ∈ items, motive item) → motive (.list items))
    (object : ∀ fields, (∀ field ∈ fields, motive field.2) →
      motive (.object fields)) :
    ∀ document, motive document
  | .number value => number value
  | .text value => text value
  | .list items =>
    list items fun item _ => induction number text list object item
  | .object fields =>
    object fields fun field _ => induction number text list object field.2
termination_by document => sizeOf document
decreasing_by
  · rename_i hitem
    have := List.sizeOf_lt_of_mem hitem
    simp
    omega
  · rename_i hfield
    have := List.sizeOf_lt_of_mem hfield
    have : sizeOf field = 1 + sizeOf field.1 + sizeOf field.2 := by
      cases field; rfl
    simp
    omega

def opening : Document → Char
  | .number _ => '0'
  | .text _ => '"'
  | .list _ => '['
  | .object _ => '\x7b'

theorem head?_render (level : Nat) (document : Document) (rest : List Char) :
    (((render level document).toList ++ rest).head?.map fun c =>
      if c.isDigit then '0' else c) =
      some document.opening := by
  cases document with
  | number value =>
      cases hdigits : Nat.toDigits 10 value with
      | nil => exact absurd hdigits Nat.toDigits_ne_nil
      | cons c digits =>
          have hdigit : c.isDigit = true := by
            apply isDigit_of_mem_digits
            rw [hdigits]
            exact List.mem_cons_self
          simp [hdigits, hdigit, opening]
  | text value => simp [toList_quoted, opening]
  | list items => cases items <;> simp [block, opening]
  | object fields => cases fields <;> simp [block, opening]

theorem opening_eq_of_render {level : Nat} {document other : Document}
    {rest rest' : List Char}
    (h : (render level document).toList ++ rest =
      (render level other).toList ++ rest') :
    document.opening = other.opening := by
  have hopening := head?_render level document rest
  rw [h, head?_render] at hopening
  exact (Option.some.inj hopening).symm

/-- A document can be told from any text that starts with its own, and so can
the end of it. -/
theorem readable_render (level : Nat) (document : Document) :
    Readable (fun document => (render level document).toList) document := by
  -- The first characters leave only documents of the same kind; the parts of
  -- these are then read in turn.
  induction document using Document.induction generalizing level with
  | number value =>
      intro other rest rest' hrest hrest' h
      have hopening := opening_eq_of_render h
      cases other with
      | number value' =>
          simp only [toList_render_number] at h
          simpa using digits_append_inj hrest hrest' h
      | _ => simp [opening] at hopening
  | text value =>
      intro other rest rest' hrest hrest' h
      have hopening := opening_eq_of_render h
      cases other with
      | text value' =>
          simp only [toList_render_text] at h
          simpa using quoted_append_inj h
      | _ => simp [opening] at hopening
  | list items ih =>
      intro other rest rest' hrest hrest' h
      have hopening := opening_eq_of_render h
      cases other with
      | list items' =>
          simp only [toList_render_list] at h
          simpa using
            block_append_inj level (by decide)
            (fun item hitem => ih item hitem (level + 1)) h
      | _ => simp [opening] at hopening
  | object fields ih =>
      intro other rest rest' hrest hrest' h
      have hopening := opening_eq_of_render h
      cases other with
      | object fields' =>
          simp only [toList_render_object] at h
          simpa using block_append_inj level (by decide)
            (fun field hfield => readable_field (ih field hfield (level + 1))) h
      | _ => simp [opening] at hopening

theorem print_injective : Function.Injective print := by
  intro document other h
  have hnothing : Stops [] := by simp [Stops]
  simp only [print] at h
  have htext : (render 0 document).toList ++ [] =
      (render 0 other).toList ++ [] := by
    rw [h]
  exact (readable_render 0 document other [] [] hnothing hnothing htext).1

end Document

end ImportAtlas
