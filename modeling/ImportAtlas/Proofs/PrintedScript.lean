import ImportAtlas.Proofs.StatementTrees

/-!
# Scripts of plain statements

A script that has a plain module statement, a comment or nothing on each of its
lines is read back in every dialect: its items are those of its statements,
each with the line it is written on.
-/

namespace ImportAtlas

open Grammar (Dialect readPreambleWithin skipGap skipGapWithin)
open Source (Cursor columnAfter isBlank)

/-! ## Lines -/

structure BlankSpace where
  text : String
  blank : text.toList.all (fun c => isBlank c && c != '\n') = true := by decide

def isRemarkPart (c : Char) : Bool :=
  !Source.isLineBreak c && c != '\r' && !Source.isNull c

structure Remark where
  text : String
  parts : text.toList.all isRemarkPart = true := by decide

inductive ScriptLine where
  | blank (space : BlankSpace)
  | comment (indent : BlankSpace) (remark : Remark)
  | statement (statement : ModuleStatement)

namespace ScriptLine

def text : ScriptLine → String
  | .blank space => space.text
  | .comment indent remark => indent.text ++ "//" ++ remark.text
  | .statement written => written.text

def statement? : ScriptLine → Option ModuleStatement
  | .statement written => some written
  | _ => none

def script (lines : List ScriptLine) : String :=
  "\n".intercalate (lines.map text)

def itemsFrom (lineOffset index : Nat) (lines : List ScriptLine) :
    List ModuleItem :=
  (lines.zipIdx index).filterMap fun (line, index) =>
    line.statement?.map (ModuleStatement.item (index + 1 + lineOffset))

def items (lineOffset : Nat) (lines : List ScriptLine) : List ModuleItem :=
  itemsFrom lineOffset 0 lines

/-- The text of lines, the first of which stands after the given text and the
others after line breaks. -/
def textAfter (lead : List Char) : List ScriptLine → List Char
  | [] => []
  | line :: lines => lead ++ line.text.toList ++ textAfter ['\n'] lines

private theorem toList_script (lines : List ScriptLine) :
    (script lines).toList = textAfter [] lines := by
  have hrest : ∀ (line : ScriptLine) (lines : List ScriptLine),
      ("\n".intercalate ((line :: lines).map text)).toList = line.text.toList ++
        textAfter ['\n'] lines := by
    intro line lines
    induction lines generalizing line with
    | nil => simp [textAfter]
    | cons next lines ih =>
        rw [List.map_cons, List.map_cons, String.intercalate_cons_cons,
          String.toList_append, String.toList_append, ← List.map_cons,
          ih, textAfter]
        simp
  cases lines with
  | nil => rfl
  | cons line lines => exact hrest line lines

private theorem lineBreak_not_mem_word (word : StatementWord) :
    '\n' ∉ word.gap ++ word.letters := by
  intro h
  cases word with
  | name name =>
      cases List.all_eq_true.1 name.letters '\n'
        (by simpa [StatementWord.gap, StatementWord.letters] using h)
  | quoted source =>
      cases List.all_eq_true.1 source.parts '\n'
        (by simpa [StatementWord.gap, StatementWord.letters] using h)
  | _ => simp [StatementWord.gap, StatementWord.letters] at h

private theorem lineBreak_not_mem_statement (statement : ModuleStatement) :
    '\n' ∉ statement.text.toList := by
  have hwords : '\n' ∉ StatementWord.textOf statement.words := by
    intro h
    obtain ⟨word, -, hword⟩ := List.mem_flatMap.1 h
    exact lineBreak_not_mem_word word hword
  have hverb : '\n' ∉ statement.verb.toList := by
    rcases Grammar.Piece.verb_cases statement with ⟨hverb, -⟩ | ⟨hverb, -⟩ <;>
      rw [hverb] <;> decide
  rw [statement.toList_text]
  simp [hwords, hverb]

private theorem lineBreak_not_mem_text (line : ScriptLine) :
    '\n' ∉ line.text.toList := by
  have hspace : ∀ space : BlankSpace, '\n' ∉ space.text.toList := by
    intro space h
    simpa using List.all_eq_true.1 space.blank '\n' h
  cases line with
  | blank space => exact hspace space
  | comment indent remark =>
      have hremark : '\n' ∉ remark.text.toList := fun h => by
        cases List.all_eq_true.1 remark.parts '\n' h
      simp [text, String.toList_append, hspace indent, hremark]
  | statement written => exact lineBreak_not_mem_statement written

end ScriptLine

/-! ## Gaps -/

namespace Source

theorem countWhileFrom_eq (holds : Char → Bool) (count : Nat)
    (text : List Char) :
    countWhileFrom holds count text = count + countWhile holds text := by
  induction text generalizing count with
  | nil => rfl
  | cons c text ih =>
      rw [countWhile, countWhileFrom, countWhileFrom]
      split
      · rw [ih, ih (0 + 1)]
        omega
      · rfl

theorem Cursor.rest_advance (cursor : Cursor) (count : Nat) :
    (cursor.advance count).rest = cursor.rest.drop count := by
  induction count generalizing cursor with
  | zero => rfl
  | succ count ih =>
      rw [Cursor.advance, ih, Cursor.next]
      split <;> simp [*]

theorem Cursor.advance_add (cursor : Cursor) (first second : Nat) :
    cursor.advance (first + second) =
      (cursor.advance first).advance second := by
  induction first generalizing cursor with
  | zero => rw [Nat.zero_add]; rfl
  | succ first ih => rw [Nat.succ_add, Cursor.advance, ih, Cursor.advance]

end Source

namespace Grammar

open Source

private theorem two_le_commentLength (text : List Char) :
    2 ≤ commentLength ('/' :: '/' :: text) := by
  rw [commentLength]
  omega

theorem skipGapWithin_eq {place : Cursor} {budget budget' : List Char}
    (h : place.rest.length ≤ budget.length)
    (h' : place.rest.length ≤ budget'.length) :
    skipGapWithin budget place = skipGapWithin budget' place := by
  induction budget generalizing place budget' with
  | nil =>
      have hrest : place.rest = [] :=
        List.eq_nil_of_length_eq_zero (Nat.le_zero.1 h)
      cases budget' with
      | nil => rfl
      | cons _ budget' =>
        simp [skipGapWithin, hrest, countWhile, countWhileFrom, Cursor.advance]
  | cons _ budget ih =>
      cases budget' with
      | nil =>
          have hrest : place.rest = [] :=
            List.eq_nil_of_length_eq_zero (Nat.le_zero.1 h')
          simp [skipGapWithin, hrest, countWhile, countWhileFrom,
            Cursor.advance]
      | cons _ budget' =>
          rw [List.length_cons] at h h'
          rw [skipGapWithin, skipGapWithin]
          split
          · next more hmore =>
            -- a comment takes two characters at least
            have hlength := congrArg List.length hmore
            have hcomment := two_le_commentLength more
            simp only [Cursor.rest_advance, List.length_drop, List.length_cons]
              at hlength
            apply ih <;>
              simp only [hmore, Cursor.rest_advance, List.length_drop,
                List.length_cons] <;> omega
          · rfl

theorem skipGap_spaces {spaces : List Char}
    (hspaces : spaces.all isBlank = true) (before text : List Char) :
    skipGap (Cursor.after before (spaces ++ text)) =
      skipGap (Cursor.after (before ++ spaces) text) := by
  have hcount : countWhile isBlank (Cursor.after before (spaces ++ text)).rest =
      spaces.length + countWhile isBlank
        (Cursor.after (before ++ spaces) text).rest := by
    change countWhileFrom isBlank 0 (spaces ++ text) = _
    rw [countWhileFrom_append 0 hspaces, countWhileFrom_eq, Nat.zero_add]
    rfl
  have hstart : (Cursor.after before (spaces ++ text)).advance
        (countWhile isBlank (Cursor.after before (spaces ++ text)).rest) =
      (Cursor.after (before ++ spaces) text).advance
        (countWhile isBlank (Cursor.after (before ++ spaces) text).rest) := by
    rw [hcount, Cursor.advance_add, Cursor.advance_after]
  calc skipGapWithin (spaces ++ text) (Cursor.after before (spaces ++ text))
      = skipGapWithin (' ' :: (spaces ++ text))
          (Cursor.after before (spaces ++ text)) :=
        skipGapWithin_eq (Nat.le_refl _) (Nat.le_succ _)
    _ = skipGapWithin (' ' :: (spaces ++ text))
        (Cursor.after (before ++ spaces) text) := by
        rw [skipGapWithin, skipGapWithin, hstart]
    _ = skipGapWithin text (Cursor.after (before ++ spaces) text) :=
        skipGapWithin_eq (by simp [Cursor.after]; omega) (Nat.le_refl _)

private theorem skipGap_comment {letters : List Char}
    (hletters : letters.all isRemarkPart = true) {text : List Char}
    (htext : text.head?.any isRemarkPart = false) (before : List Char) :
    skipGap (Cursor.after before ('/' :: '/' :: (letters ++ text))) =
      skipGap (Cursor.after (before ++ '/' :: '/' :: letters) text) := by
  have hlength : commentLength ('/' :: '/' :: (letters ++ text)) =
      ('/' :: '/' :: letters).length := by
    have hcount : countWhile isRemarkPart (letters ++ text) = letters.length :=
      countWhile_append hletters htext
    rw [commentLength]
    change 2 + countWhile isRemarkPart (letters ++ text) = _
    rw [hcount, List.length_cons, List.length_cons]
    omega
  have hstop := Cursor.advance_after before ('/' :: '/' :: letters) text
  calc
    skipGapWithin ('/' :: '/' :: (letters ++ text))
          (Cursor.after before ('/' :: '/' :: (letters ++ text)))
      = skipGapWithin ('/' :: (letters ++ text))
          ((Cursor.after before ('/' :: '/' :: (letters ++ text))).advance
            (commentLength ('/' :: '/' :: (letters ++ text)))) := rfl
    _ = skipGapWithin ('/' :: (letters ++ text))
        (Cursor.after (before ++ '/' :: '/' :: letters) text) := by
        rw [hlength, ← List.cons_append, ← List.cons_append, hstop]
    _ = skipGapWithin text
        (Cursor.after (before ++ '/' :: '/' :: letters) text) :=
        skipGapWithin_eq (by simp [Cursor.after]; omega) (Nat.le_refl _)

private theorem skipGap_statement (statement : ModuleStatement)
    (before rest : List Char) :
    skipGap (Cursor.after before (statement.text.toList ++ rest)) =
      Cursor.after before (statement.text.toList ++ rest) := by
  rw [statement.toList_text, List.append_assoc]
  rcases Piece.verb_cases statement with ⟨hverb, -⟩ | ⟨hverb, -⟩ <;>
    rw [hverb] <;> rfl

/-- What is read depends on the place after the gap alone. -/
theorem readPreambleWithin_congr {place place' : Cursor}
    (h : skipGap place = skipGap place') (budget : List Char) :
    (readPreambleWithin budget place).1 = (readPreambleWithin budget place').1 ∧
      skipGap (readPreambleWithin budget place).2 =
        skipGap (readPreambleWithin budget place').2 := by
  cases budget with
  | nil => exact ⟨rfl, h⟩
  | cons _ budget =>
      rw [readPreambleWithin, readPreambleWithin, h]
      cases readPlain? (skipGap place') with
      | none => exact ⟨rfl, h⟩
      | some statement => exact ⟨rfl, rfl⟩

private theorem readPreambleWithin_end (budget before : List Char) :
    readPreambleWithin budget (Cursor.after before []) =
      ([], Cursor.after before []) := by
  cases budget <;> rfl

end Grammar

/-! ## Whole scripts -/

namespace ScriptLine

private theorem all_isBlank (space : BlankSpace) :
    space.text.toList.all isBlank = true := by
  rw [List.all_eq_true]
  intro c hc
  exact (Bool.and_eq_true _ _ ▸ List.all_eq_true.1 space.blank c hc).1

private theorem head?_textAfter (lines : List ScriptLine) :
    (textAfter ['\n'] lines).head?.any isRemarkPart = false := by
  cases lines <;> rfl

private theorem readPreambleWithin_statement (statement : ModuleStatement)
    {before lead : List Char} (hlead : lead.all isBlank = true)
    (hcolumn : columnAfter (before ++ lead) = 0) (rest : List Char) (c : Char)
    (budget : List Char) :
    ∃ tree, (∀ lineOffset, ModuleItem.ofTree lineOffset [] tree =
        [statement.item ((before ++ lead).count '\n' + 1 + lineOffset)]) ∧
      readPreambleWithin (c :: budget)
      (Cursor.after before (lead ++ statement.text.toList ++ rest)) =
        (tree :: (readPreambleWithin budget
          (Cursor.after (before ++ lead ++ statement.text.toList) rest)).1,
          (readPreambleWithin budget (Cursor.after (before ++ lead ++
            statement.text.toList) rest)).2) := by
  obtain ⟨kind, children, hread⟩ := statement.exists_readAs hcolumn rest
  refine ⟨statement.tree (before ++ lead) rest kind children,
    fun lineOffset => ?_, ?_⟩
  · have hown := hread.own lineOffset
    rw [ModuleStatement.tree] at hown ⊢
    rw [ModuleItem.ofTree, hown, ModuleItem.ofTrees_quiet hread.quiet,
      Option.toList_some, List.append_nil]
  · rw [List.append_assoc, readPreambleWithin, Grammar.skipGap_spaces hlead,
      Grammar.skipGap_statement, hread.read]
    rfl

theorem length_filterMap_le (lead : List Char) (lines : List ScriptLine) :
    (lines.filterMap statement?).length ≤ (textAfter lead lines).length := by
  induction lines generalizing lead with
  | nil => exact Nat.le_refl _
  | cons line lines ih =>
      have hrest := ih ['\n']
      rw [textAfter, List.length_append]
      cases line with
      | blank _ | comment _ _ =>
          rw [List.filterMap_cons_none rfl]
          omega
      | statement statement =>
          rw [text, statement.toList_text]
          simp only [List.filterMap_cons, statement?, List.length_cons,
            List.length_append]
          omega

private theorem skipGap_line {line : ScriptLine}
    (hline : line.statement? = none) {lead : List Char}
    (hlead : lead.all isBlank = true) (before : List Char)
    (lines : List ScriptLine) :
    skipGap (Cursor.after before (textAfter lead (line :: lines))) =
      skipGap (Cursor.after (before ++ lead ++ line.text.toList)
        (textAfter ['\n'] lines)) := by
  have hspaces (space : BlankSpace) :
      (lead ++ space.text.toList).all isBlank = true := by
    rw [List.all_append, hlead, all_isBlank space, Bool.and_self]
  cases line with
  | blank space =>
      have hskip :=
        Grammar.skipGap_spaces (hspaces space) before (textAfter ['\n'] lines)
      rwa [← List.append_assoc] at hskip
  | comment indent remark =>
      have hskip := Grammar.skipGap_spaces (hspaces indent) before
        ('/' :: '/' :: (remark.text.toList ++ textAfter ['\n'] lines))
      rw [Grammar.skipGap_comment remark.parts (head?_textAfter lines)] at hskip
      simpa [textAfter, text, String.toList_append] using hskip
  | statement _ => cases hline

private theorem readPreambleWithin_lines (lines : List ScriptLine)
    {before lead : List Char} (hlead : lead = [] ∧ before = [] ∨ lead = ['\n'])
    {index : Nat} (hindex : (before ++ lead).count '\n' = index)
    {budget : List Char}
    (hbudget : (lines.filterMap statement?).length ≤ budget.length)
    (lineOffset : Nat) :
    ModuleItem.ofTrees lineOffset [] (readPreambleWithin budget
        (Cursor.after before (textAfter lead lines))).1 =
        itemsFrom lineOffset index lines ∧
      (skipGap (readPreambleWithin budget
        (Cursor.after before (textAfter lead lines))).2).atEnd = true := by
  have hblank : lead.all isBlank = true := by
    rcases hlead with ⟨rfl, -⟩ | rfl <;> rfl
  induction lines generalizing before lead index budget with
  | nil =>
      rw [textAfter, Grammar.readPreambleWithin_end]
      exact ⟨rfl, rfl⟩
  | cons line lines ih =>
      have hnext : (before ++ lead ++ line.text.toList ++ ['\n']).count '\n' =
          index + 1 := by
        rw [List.count_append, List.count_append,
          List.count_eq_zero_of_not_mem line.lineBreak_not_mem_text, hindex]
        rfl
      cases hline : line.statement? with
      | none =>
          obtain ⟨hstatements, hplace⟩ :=
            Grammar.readPreambleWithin_congr
              (skipGap_line hline hblank before lines) budget
          have hitems : itemsFrom lineOffset index (line :: lines) =
              itemsFrom lineOffset (index + 1) lines := by
            simp [itemsFrom, List.zipIdx_cons, hline]
          rw [List.filterMap_cons_none hline] at hbudget
          rw [hstatements, hplace, hitems]
          exact ih (.inr rfl) hnext hbudget rfl
      | some statement =>
          obtain rfl : line = .statement statement := by
            cases line <;> cases hline
            rfl
          simp only [List.filterMap_cons, hline, List.length_cons] at hbudget
          cases budget with
          | nil => simp at hbudget
          | cons c budget =>
              have hcolumn : columnAfter (before ++ lead) = 0 := by
                rcases hlead with ⟨rfl, rfl⟩ | rfl
                · rfl
                · exact Source.columnAfter_concat_break before
              obtain ⟨tree, hitem, hread⟩ := readPreambleWithin_statement
                statement hblank hcolumn (textAfter ['\n'] lines) c budget
              obtain ⟨hitems, hend⟩ :=
                ih (.inr rfl) hnext (Nat.le_of_succ_le_succ hbudget) rfl
              rw [textAfter]
              simp only [text] at hitems hend ⊢
              rw [hread]
              refine ⟨?_, hend⟩
              rw [ModuleItem.ofTrees, hitem, hitems, hindex]
              simp [itemsFrom, List.zipIdx_cons, statement?]

end ScriptLine

/--
A script with a plain module statement, a comment or nothing on each of its
lines is read without an error in every dialect.  It has exactly one item for
each statement, in order, with the names and the source of the statement, its
line, column one and its text.
-/
theorem plain_scripts_are_read_back (dialect : Dialect) (lineOffset : Nat)
    (path : Path) (lines : List ScriptLine) :
    scriptItems dialect lineOffset path (ScriptLine.script lines).toList =
      .ok (ScriptLine.items lineOffset lines) := by
  obtain ⟨hitems, hend⟩ := ScriptLine.readPreambleWithin_lines lines
    (.inl ⟨rfl, rfl⟩) rfl (ScriptLine.length_filterMap_le [] lines) lineOffset
  have hread : Grammar.readScript dialect (ScriptLine.textAfter [] lines) =
      .ok (readPreambleWithin (ScriptLine.textAfter [] lines)
        (Cursor.start (ScriptLine.textAfter [] lines))).1 := by
    rw [Grammar.readScript]
    exact if_pos hend
  rw [scriptItems, ScriptLine.toList_script, hread]
  exact congrArg Except.ok hitems

def stallStatement : ModuleStatement :=
  .importDefaultAndNames { text := "D" }
    { first := { name := { text := "a" }, newName := some { text := "b" } },
      others := [{ name := { text := "c" } }] }
    { text := "./s" }

theorem comment_with_line_separator_adds_an_item :
    stallStatement.text = "import D, \x7b a as b, c \x7d from './s';" ∧
      (scriptItems .javaScript 0 ⟨"/a.js"⟩ ("//\u2028import './b';\n" ++
        stallStatement.text).toList).toOption =
        some [.staticImport ⟨"./b", [], .standard, 1, 6, "import './b';"⟩,
          .staticImport ⟨"./s", [⟨"default", "D"⟩, ⟨"a", "b"⟩, ⟨"c", "c"⟩],
            .named, 2, 1, stallStatement.text⟩] := by
  decide +kernel

end ImportAtlas
