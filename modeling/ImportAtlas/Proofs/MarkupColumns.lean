import ImportAtlas.Proofs.ScriptElements
import ImportAtlas.Proofs.TreePlaces

/-!
# Columns of imports in markup

The scripts of a markup file are read one by one, each as a text of its own.
Lines are then counted on from the lines before the script; columns are not.
They are those of the file from the second line of a script on, and too small
by the width of what precedes the script on its first line.
-/

namespace ImportAtlas

open Grammar (SourceTree readScript)
open ScriptBlock (closingMark dialectOf lineBreaks)
open Source (Cursor columnAfter)

structure MarkupConstruct (text : List Char) where
  earlier : List ScriptElement
  element : ScriptElement
  later : List ScriptElement
  rest : List Char
  row : MadeOf text (earlier ++ element :: later) rest
  trees : List SourceTree
  read : readScript (dialectOf element.tag) element.body = .ok trees
  tree : SourceTree
  within : SourceTree.Within trees tree
  /-- What the body of the element has before the construct, and from it on. -/
  inner : List Char
  outer : List Char
  body : element.body = inner ++ outer
  start : tree.start = Cursor.after inner outer

namespace MarkupConstruct

variable {text : List Char}

def lead (construct : MarkupConstruct text) : List Char :=
  construct.earlier.flatMap ScriptElement.text ++ construct.element.gap ++
    construct.element.tag

def line (construct : MarkupConstruct text) : Nat :=
  lineBreaks (construct.lead ++ construct.inner) + 1

def column (construct : MarkupConstruct text) : Nat :=
  columnAfter (construct.lead ++ construct.inner) + 1

/-- The column of the construct if the file began with the body. -/
def columnInBody (construct : MarkupConstruct text) : Nat :=
  columnAfter construct.inner + 1

private theorem exists_text (construct : MarkupConstruct text) :
    ∃ more, text = construct.lead ++ construct.inner ++
      (construct.tree.text ++ more) := by
  have hprefix : construct.tree.text <+: construct.outer := by
    rw [SourceTree.text, construct.start]
    exact List.take_prefix _ _
  obtain ⟨unread, houter⟩ := hprefix
  refine ⟨unread ++ closingMark ++ construct.later.flatMap ScriptElement.text ++
    construct.rest, ?_⟩
  refine construct.row.text.trans ?_
  rw [List.flatMap_append, List.flatMap_cons, ScriptElement.text,
    construct.body, ← houter]
  simp [lead]

theorem columnAfter_lead_pos (construct : MarkupConstruct text) :
    0 < columnAfter construct.lead := by
  rw [lead, ScriptElement.tag, ← List.append_assoc,
    Source.columnAfter_concat (by decide)]
  exact Nat.add_pos_right _ (by decide)

theorem column_eq (construct : MarkupConstruct text) :
    construct.column =
      if '\n' ∈ construct.inner then construct.columnInBody
      else columnAfter construct.lead + construct.columnInBody := by
  rw [column, Source.columnAfter_append, columnInBody]
  split <;> omega

private theorem columnInBody_eq_column_iff (construct : MarkupConstruct text) :
    construct.columnInBody = construct.column ↔ '\n' ∈ construct.inner := by
  have hpositive := construct.columnAfter_lead_pos
  rw [column_eq]
  split
  · next hbreak => simp [hbreak]
  · next hbreak =>
    simp only [hbreak, iff_false]
    omega

end MarkupConstruct

private theorem mem_of_mapM_ok {α β ε : Type} {f : α → Except ε β}
    {items : List α} {values : List β} (h : items.mapM f = .ok values) :
    ∀ value ∈ values, ∃ item ∈ items, f item = .ok value := by
  induction items generalizing values with
  | nil =>
      cases h
      simp
  | cons item items ih =>
      rw [List.mapM_cons] at h
      cases hitem : f item with
      | error error =>
          rw [hitem] at h
          cases h
      | ok first =>
          cases hitems : items.mapM f with
          | error error =>
              rw [hitem, hitems] at h
              cases h
          | ok others =>
              rw [hitem, hitems] at h
              cases h
              rw [List.forall_mem_cons]
              refine ⟨⟨item, by simp, hitem⟩, fun value hvalue => ?_⟩
              obtain ⟨found, hfound, hread⟩ := ih hitems value hvalue
              exact ⟨found, List.mem_cons_of_mem item hfound, hread⟩

private theorem ScriptElement.exists_of_mem_blocks {before : List Char}
    {elements : List ScriptElement} {block : ScriptBlock}
    (h : block ∈ ScriptElement.blocks before elements) :
    ∃ earlier element later, elements = earlier ++ element :: later ∧
      block = element.block (before ++ earlier.flatMap ScriptElement.text) := by
  induction elements generalizing before with
  | nil => simp [ScriptElement.blocks] at h
  | cons element elements ih =>
      rcases List.mem_cons.1 h with rfl | h
      · exact ⟨[], element, elements, rfl, by simp⟩
      · obtain ⟨earlier, found, later, rfl, rfl⟩ := ih h
        exact ⟨element :: earlier, found, later, rfl, by simp⟩

private theorem exists_block_of_mem_imports {language : SourceLanguage}
    (hmarkup : language.isMarkup = true) {path : Path}
    {text : String} {module : FileModule}
    (hmodule : analyzeSource language path text = .ok module)
    {record : ImportRecord} (hrecord : record ∈ module.imports) :
    ∃ block ∈ ScriptBlock.all text.toList,
      ∃ trees, readScript block.dialect block.body = .ok trees ∧
      ∃ item ∈ ModuleItem.ofTrees block.lineOffset [] trees,
        record ∈ item.import? := by
  unfold analyzeSource sourceItems at hmodule
  rw [if_pos hmarkup] at hmodule
  generalize hread : ((ScriptBlock.all text.toList).mapM fun block =>
    scriptItems block.dialect block.lineOffset path block.body) =
      read at hmodule
  cases read with
  | error error => nomatch hmodule
  | ok blocks =>
      obtain rfl := Except.ok.inj hmodule
      obtain ⟨item, hitem, himport⟩ := List.mem_filterMap.1 hrecord
      obtain ⟨items, hitems, hitem⟩ := List.mem_flatten.1 hitem
      obtain ⟨block, hblock, hscript⟩ := mem_of_mapM_ok hread items hitems
      unfold scriptItems at hscript
      generalize htrees : readScript block.dialect block.body = trees at hscript
      cases trees with
      | error place => nomatch hscript
      | ok trees =>
          obtain rfl := Except.ok.inj hscript
          exact ⟨block, hblock, trees, htrees, item, hitem, himport⟩

/--
An import of a markup file has the line of its construct in the file, and the
column that the construct has in its script.  This is the column in the file
exactly if the script breaks the line before the construct; if not, what
precedes the script on its line is missing.
-/
theorem markup_columns_count_from_the_script {language : SourceLanguage}
    {path : Path} {text : String} {module : FileModule}
    (hmarkup : language.isMarkup = true)
    (hmodule : analyzeSource language path text = .ok module)
    (record : ImportRecord) (hrecord : record ∈ module.imports) :
    ∃ construct : MarkupConstruct text.toList,
      ModuleItem.isConstruct construct.tree.kind = true ∧
      (∃ more, text.toList = construct.lead ++ construct.inner ++
        (record.sourceText.toList ++ more)) ∧
      record.sourceText = ModuleItem.textOf construct.tree ∧
      record.line = construct.line ∧
      record.column = construct.columnInBody ∧
      (record.column = construct.column ↔ '\n' ∈ construct.inner) ∧
      ('\n' ∉ construct.inner →
        construct.column = columnAfter construct.lead + record.column ∧
        record.column < construct.column) := by
  obtain ⟨elements, rest, hrow⟩ := exists_madeOf text.toList
  obtain ⟨block, hblock, trees, htrees, item, hitem, himport⟩ :=
    exists_block_of_mem_imports hmarkup hmodule hrecord
  rw [all_eq_blocks hrow] at hblock
  obtain ⟨earlier, element, later, rfl, rfl⟩ :=
    ScriptElement.exists_of_mem_blocks hblock
  obtain ⟨tree, hwithin, hdescribes⟩ :=
    ModuleItem.exists_describes_of_mem_ofTrees hitem record himport
  obtain ⟨inner, outer, hbody, hstart⟩ :=
    (hwithin.stands (Grammar.readScript_stands htrees)).start
  let construct : MarkupConstruct text.toList :=
    { earlier, element, later, rest, row := hrow, trees, read := htrees, tree,
      within := hwithin, inner, outer, body := hbody, start := hstart }
  have hline : record.line = construct.line := by
    rw [hdescribes.line, hstart]
    simp only [MarkupConstruct.line, MarkupConstruct.lead, construct,
      ScriptElement.block, lineBreaks, Cursor.after, List.count_append,
      List.nil_append]
    omega
  have hcolumn : record.column = construct.columnInBody := by
    rw [hdescribes.column, hstart]
    rfl
  have htext : record.sourceText.toList = construct.tree.text := by
    rw [hdescribes.text, ModuleItem.textOf, String.toList_ofList]
  refine ⟨construct, hdescribes.construct, htext ▸ construct.exists_text,
    hdescribes.text, hline, hcolumn,
    hcolumn ▸ construct.columnInBody_eq_column_iff, fun hbreak => ?_⟩
  have hpositive := construct.columnAfter_lead_pos
  rw [construct.column_eq, if_neg hbreak, hcolumn]
  omega

def inlineText : String :=
  "<p>é</p><script>import a from './a';</script>\n<script lang=\"ts\">\n  import './b';</script>\n"

def inlineItems : List ModuleItem :=
  [.staticImport ⟨"./a", [.defaultAs "a"], .standard, 1, 1,
    "import a from './a';"⟩, .staticImport ⟨"./b", [], .standard, 3, 3,
    "import './b';"⟩]

theorem analyzeSource_of_toOption {language : SourceLanguage} {path : Path}
    {text : String} {items : List ModuleItem}
    (h : (sourceItems language path text.toList).toOption = some items) :
    analyzeSource language path text = .ok (.ofItems path items) := by
  unfold analyzeSource
  generalize sourceItems language path text.toList = read at h
  cases read with
  | error error => nomatch h
  | ok known =>
      obtain rfl := Option.some.inj h
      rfl

theorem inline_columns_count_from_the_script :
    SourceLanguage.vue.isMarkup = true ∧
      ∃ module, analyzeSource .vue ⟨"/App.vue"⟩ inlineText = .ok module ∧
        module.imports.length = 2 ∧
        ∀ record ∈ module.imports,
          ∃ construct : MarkupConstruct inlineText.toList,
            record.sourceText = ModuleItem.textOf construct.tree ∧
            record.line = construct.line ∧
            record.column = construct.columnInBody ∧
            (record.column = construct.column ↔ '\n' ∈ construct.inner) := by
  have hmodule : analyzeSource .vue ⟨"/App.vue"⟩ inlineText =
      .ok (.ofItems ⟨"/App.vue"⟩ inlineItems) :=
    analyzeSource_of_toOption (by decide +kernel)
  refine ⟨rfl, _, hmodule, rfl, fun record hrecord => ?_⟩
  obtain ⟨construct, -, -, htext, hline, hcolumn, hiff, -⟩ :=
    markup_columns_count_from_the_script rfl hmodule record hrecord
  exact ⟨construct, htext, hline, hcolumn, hiff⟩

theorem column_beside_the_tag_is_not_the_files :
    ∃ module,
      analyzeSource .vue ⟨"/App.vue"⟩ "<script>import a from './a';</script>" =
        .ok module ∧
      ∃ record ∈ module.imports,
        "<script>import a from './a';</script>" = "<script>" ++
          record.sourceText ++ "</script>" ∧
          columnAfter "<script>".toList + 1 = 9 ∧ record.line = 1 ∧
          record.column = 1 := by
  have hmodule :
      analyzeSource .vue ⟨"/App.vue"⟩ "<script>import a from './a';</script>" =
      .ok (.ofItems ⟨"/App.vue"⟩ (inlineItems.take 1)) :=
    analyzeSource_of_toOption (by decide +kernel)
  exact ⟨_, hmodule, _, List.mem_singleton_self _, by decide +kernel⟩

end ImportAtlas
