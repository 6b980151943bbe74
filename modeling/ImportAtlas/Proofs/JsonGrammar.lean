import ImportAtlas.Proofs.DocumentText

/-!
# The JSON grammar

Which texts are JSON values, as the standard has it, and that the text of every
document is one.
-/

namespace ImportAtlas

namespace Json

/-! ## Texts -/

def Blank (text : List Char) : Prop :=
  ∀ c ∈ text, c ∈ [' ', '\t', '\n', '\r']

def IsHexDigit (c : Char) : Prop :=
  c ∈ "0123456789abcdefABCDEF".toList

inductive StringChar : List Char → Prop
  | plain {c : Char} (hcontrol : 32 ≤ c.toNat) (hquote : c ≠ '"')
      (hslash : c ≠ '\\') : StringChar [c]
  | letter {c : Char}
      (hletter : c ∈ ['"', '\\', '/', 'b', 'f', 'n', 'r', 't']) :
      StringChar ['\\', c]
  | code {a b c d : Char} (ha : IsHexDigit a) (hb : IsHexDigit b)
      (hc : IsHexDigit c) (hd : IsHexDigit d) :
      StringChar ['\\', 'u', a, b, c, d]

inductive StringText : List Char → Prop
  | quoted {chars : List (List Char)}
      (hchars : ∀ char ∈ chars, StringChar char) :
      StringText ('"' :: chars.flatten ++ ['"'])

/-! ## Numbers -/

def Digits (text : List Char) : Prop :=
  text ≠ [] ∧ ∀ c ∈ text, c.isDigit = true

def Whole (text : List Char) : Prop :=
  Digits text ∧ (text.head? = some '0' → text = ['0'])

inductive Fraction : List Char → Prop
  | none : Fraction []
  | digits {text : List Char} (htext : Digits text) : Fraction ('.' :: text)

inductive Exponent : List Char → Prop
  | none : Exponent []
  | digits {mark : Char} {sign text : List Char} (hmark : mark ∈ ['e', 'E'])
      (hsign : sign ∈ [[], ['+'], ['-']]) (htext : Digits text) :
      Exponent (mark :: sign ++ text)

inductive Number : List Char → Prop
  | parts {sign whole fraction exponent : List Char}
      (hsign : sign ∈ [[], ['-']]) (hwhole : Whole whole)
      (hfraction : Fraction fraction) (hexponent : Exponent exponent) :
      Number (sign ++ whole ++ fraction ++ exponent)

/-! ## Values -/

inductive Padded (Part : List Char → Prop) : List Char → Prop
  | blanks {before text after : List Char} (hbefore : Blank before)
      (htext : Part text) (hafter : Blank after) :
      Padded Part (before ++ text ++ after)

inductive Separated (Part : List Char → Prop) : List Char → Prop
  | one {text : List Char} (htext : Part text) : Separated Part text
  | more {text rest : List Char} (htext : Part text)
      (hrest : Separated Part rest) :
      Separated Part (text ++ ',' :: rest)

inductive Member (Part : List Char → Prop) : List Char → Prop
  | named {name value : List Char} (hname : Padded StringText name)
      (hvalue : Padded Part value) :
      Member Part (name ++ ':' :: value)

inductive Value : List Char → Prop
  | null : Value "null".toList
  | true : Value "true".toList
  | false : Value "false".toList
  | number {text : List Char} (htext : Number text) : Value text
  | string {text : List Char} (htext : StringText text) : Value text
  | emptyArray {text : List Char} (htext : Blank text) :
      Value ('[' :: text ++ [']'])
  | array {text : List Char} (htext : Separated (Padded Value) text) :
      Value ('[' :: text ++ [']'])
  | emptyObject {text : List Char} (htext : Blank text) :
      Value ('\x7b' :: text ++ ['\x7d'])
  | object {text : List Char} (htext : Separated (Member Value) text) :
      Value ('\x7b' :: text ++ ['\x7d'])

end Json

/-! ## The texts of documents -/

namespace Document

open Json

theorem isHexDigit_hexDigit : ∀ value < 16, IsHexDigit (hexDigit value) := by
  unfold IsHexDigit
  decide

private theorem stringChar_escapeChar (c : Char) :
    StringChar (escapeChar c) := by
  rcases escapeChar_cases c
    with ⟨letter, hescape, hletter⟩ | ⟨hcontrol, hescape⟩ | ⟨hplain, hquote,
      hslash, hescape⟩
  · rw [hescape]
    refine .letter ?_
    unfold Manifest.Strict.escapedChar? at hletter
    split at hletter <;> simp_all
  · rw [hescape]
    have hzero : IsHexDigit '0' := isHexDigit_hexDigit 0 (by omega)
    exact .code hzero hzero (isHexDigit_hexDigit _ (by omega))
      (isHexDigit_hexDigit _ (by omega))
  · rw [hescape]
    exact .plain hplain hquote hslash

theorem stringText_quoted (text : String) :
    StringText (quoted text).toList := by
  rw [toList_quoted, List.flatMap_def]
  refine .quoted fun char hchar => ?_
  obtain ⟨c, -, rfl⟩ := List.mem_map.mp hchar
  exact stringChar_escapeChar c

private theorem eq_zero_of_head?_toDigits (value : Nat)
    (h : (Nat.toDigits 10 value).head? = some '0') : value = 0 := by
  induction value using Nat.strongRecOn with
  | ind value ih =>
      by_cases hsmall : value < 10
      · have hdigit : ∀ digit < 10, Nat.digitChar digit = '0' → digit = 0 := by
          decide
        rw [Nat.toDigits_of_lt_base hsmall] at h
        exact hdigit value hsmall (by simpa using h)
      · rw [Nat.toDigits_of_base_le (by omega) (by omega),
          List.head?_append_of_ne_nil _ Nat.toDigits_ne_nil] at h
        have := ih (value / 10) (by omega) h
        omega

private theorem whole_toDigits (value : Nat) :
    Whole (Nat.toDigits 10 value) := by
  refine ⟨⟨Nat.toDigits_ne_nil, fun c hc => isDigit_of_mem_digits hc⟩,
    fun h => ?_⟩
  rw [eq_zero_of_head?_toDigits value h]
  rfl

private theorem number_toDigits (value : Nat) :
    Number (Nat.toDigits 10 value) := by
  have hnumber : Number ([] ++ Nat.toDigits 10 value ++ [] ++ []) :=
    .parts (by simp) (whole_toDigits value) .none .none
  simpa using hnumber

theorem blank_nil : Blank [] := by
  simp [Blank]

theorem blank_lineStart (level : Nat) : Blank (lineStart level) := by
  intro c hc
  simp only [lineStart, indent, String.toList_ofList, List.mem_cons,
    List.mem_replicate] at hc
  rcases hc with rfl | ⟨-, rfl⟩ <;> simp

/-- The lines between two brackets; the break before the closing one belongs to
the last part. -/
theorem separated_lines {α : Type} (text : α → List Char)
    {Part : List Char → Prop} (level : Nat) {thing : α}
    {things : List α}
    (hthings : ∀ other ∈ thing :: things, ∀ before after, Blank before →
      Blank after →
      Part (before ++ text other ++ after)) :
    Separated Part (lineStart (level + 1) ++ text thing ++
      (things.map text).flatMap
        (fun part => ',' :: lineStart (level + 1) ++ part) ++
        lineStart level) := by
  induction things generalizing thing with
  | nil =>
      have hlast :=
        hthings thing (by simp) _ _ (blank_lineStart (level + 1))
          (blank_lineStart level)
      simpa using Separated.one hlast
  | cons next things ih =>
      have hfirst :=
        hthings thing (by simp) _ _ (blank_lineStart (level + 1)) blank_nil
      have hrest :=
        ih fun other hother => hthings other (List.mem_cons_of_mem thing hother)
      simpa using Separated.more hfirst hrest

private theorem member_fieldText {level : Nat} {field : String × Document}
    (hvalue : Value (render level field.2).toList) {before after : List Char}
    (hbefore : Blank before) (hafter : Blank after) :
    Member Value (before ++ fieldText level field ++ after) := by
  have hspace : Blank [' '] := by simp [Blank]
  have hname := Padded.blanks hbefore (stringText_quoted field.1) blank_nil
  have hmember := Member.named hname (.blanks hspace hvalue hafter)
  simpa [fieldText] using hmember

theorem value_render (level : Nat) (document : Document) :
    Value (render level document).toList := by
  induction document using Document.induction generalizing level with
  | number value =>
      rw [toList_render_number]
      exact .number (number_toDigits value)
  | text value =>
      rw [toList_render_text]
      exact .string (stringText_quoted value)
  | list items ih =>
      rw [toList_render_list]
      cases items with
      | nil => exact .emptyArray blank_nil
      | cons item items =>
          refine .array
            (separated_lines (fun item => (render (level + 1) item).toList)
              level ?_)
          intro item hitem before after hbefore hafter
          exact .blanks hbefore (ih item hitem (level + 1)) hafter
  | object fields ih =>
      rw [toList_render_object]
      cases fields with
      | nil => exact .emptyObject blank_nil
      | cons field fields =>
          refine .object (separated_lines (fieldText (level + 1)) level ?_)
          intro field hfield before after hbefore hafter
          exact member_fieldText (ih field hfield (level + 1)) hbefore hafter

end Document

end ImportAtlas
