import ImportAtlas.Proofs.LiteralText
import ImportAtlas.Proofs.StatementText
import ImportAtlas.Proofs.TreePlaces

/-!
# Trees of module statements

The words of a plain module statement make up its tree, and the tree makes up
its item.  What a list of names leads to is shown by induction on the list; the
nine forms of statements follow.
-/

namespace ImportAtlas

open Grammar (Piece PieceKind SourceTree Label Kind)
open ModuleItem (clauseBindings clauseNames isConstruct namePair? stringValue?)
open Source (Cursor columnAfter)
open StatementWord (cut textOf)

/-! ## Trees without items -/

/-- Whether neither a tree nor a tree inside it is an import or an export. -/
inductive Grammar.SourceTree.Quiet : SourceTree → Prop
  | node {label : Label} {kind : Kind} {start stop : Cursor}
      {children : List SourceTree} (hkind : isConstruct kind = false)
      (hchildren : ∀ child ∈ children, Quiet child) :
      Quiet (.node label kind start stop children)

theorem Grammar.SourceTree.Quiet.of_within {trees : List SourceTree}
    (htrees : ∀ tree ∈ trees, tree.Quiet) {tree : SourceTree}
    (h : SourceTree.Within trees tree) : tree.Quiet := by
  induction h with
  | top htree => exact htrees _ htree
  | child _ hchild ih =>
      cases ih with
      | node _ hchildren => exact hchildren _ hchild

theorem Grammar.SourceTree.Quiet.kind {tree : SourceTree} (h : tree.Quiet) :
    isConstruct tree.kind = false := by
  cases h
  assumption

private theorem ModuleItem.own?_eq_none {tree : SourceTree}
    (h : isConstruct tree.kind = false) (lineOffset : Nat)
    (above : List SourceTree) :
    ModuleItem.own? lineOffset tree above = none := by
  unfold ModuleItem.own?
  split
  case h_4 => rfl
  all_goals
    next hkind =>
      rw [hkind] at h
      cases h

theorem ModuleItem.ofTrees_quiet {trees : List SourceTree}
    (htrees : ∀ tree ∈ trees, tree.Quiet) (lineOffset : Nat)
    (above : List SourceTree) :
    ModuleItem.ofTrees lineOffset above trees = [] := by
  rw [List.eq_nil_iff_forall_not_mem]
  intro item hitem
  -- the item would be that of a quiet tree
  obtain ⟨tree, inner, htree, hown⟩ := ModuleItem.mem_ofTrees_iff.1 hitem
  rw [ModuleItem.own?_eq_none (SourceTree.Quiet.of_within htrees
    htree.within).kind] at hown
  cases hown

theorem Grammar.SourceTree.children_node (label : Label) (kind : Kind)
    (start stop : Cursor) (children : List SourceTree) :
    (SourceTree.node label kind start stop children).children = children := rfl

namespace Grammar.Piece

/-! ## Single words -/

def wordTree (label : Label) (kind : Kind) (before letters rest : List Char) :
    SourceTree :=
  .node label kind (Cursor.after before (letters ++ rest))
    (Cursor.after (before ++ letters) rest) []

theorem text_wordTree (label : Label) (kind : Kind)
    (before letters rest : List Char) :
    (wordTree label kind before letters rest).text = letters :=
  Cursor.textUntil_after before letters rest

theorem textOf_wordTree (label : Label) (kind : Kind) (before : List Char)
    (name : PlainName) (rest : List Char) :
    ModuleItem.textOf (wordTree label kind before name.text.toList rest) =
      name.text := by
  rw [ModuleItem.textOf, text_wordTree, String.ofList_toList]

theorem quiet_wordTree {kind : Kind} (hkind : isConstruct kind = false)
    (label : Label) (before letters rest : List Char) :
    (wordTree label kind before letters rest).Quiet :=
  .node hkind (by simp)

private theorem unquote_quoted (source : PlainSpecifier) :
    ModuleItem.unquote (StatementWord.letters (.quoted source)) =
      source.text.toList := by
  have hclear : ∀ c ∈ source.text.toList, ModuleItem.isQuote c = false := by
    intro c hc
    have hpart := List.all_eq_true.1 source.parts c hc
    simp only [isSpecifierPart, Bool.and_eq_true, Bool.not_eq_true'] at hpart
    simp [hpart]
  have hquote : ModuleItem.isQuote '\'' = true := by decide
  have hbare := ModuleItem.bare_of_forall hclear
  exact ModuleItem.unquote_eq_iff.2
    ((ModuleItem.stripped_self_iff.2 hbare).quoted hquote)

private theorem stringValue?_wordTree (source : PlainSpecifier)
    (before rest : List Char) :
    stringValue? (wordTree .source .string before
      (StatementWord.letters (.quoted source)) rest) =
      some source.text := by
  rw [stringValue?]
  simp only [wordTree, SourceTree.kind]
  rw [← wordTree, text_wordTree, unquote_quoted, String.ofList_toList]

/-! ## Lists of names -/

theorem exists_entryTree (entry : NameEntry) (before rest : List Char) :
    ∃ tree, namePair? tree = some entry.pair ∧ tree.Quiet ∧
      (∀ start stop pieces, namesOf? (cut before entry.words rest ++
        ⟨.closing, start, stop⟩ :: pieces) =
        some ([tree], stop, pieces)) ∧
      ∀ start stop pieces, namesOf? (cut before entry.words rest ++
        ⟨.comma, start, stop⟩ :: pieces) =
        (namesOf? pieces).map fun (names, more) => (tree :: names, more) := by
  obtain ⟨name, newName⟩ := entry
  cases newName with
  | none =>
      -- a name that is kept stands alone in its tree
      let inner :=
        wordTree .name .identifier (before ++ [' ']) name.text.toList rest
      refine ⟨.node .plain .other inner.start inner.stop [inner], ?_, ?_,
        fun _ _ _ => rfl, fun _ _ _ => rfl⟩
      · have htext :=
          textOf_wordTree .name .identifier (before ++ [' ']) name rest
        change some (ModuleItem.textOf inner, ModuleItem.textOf inner) = _
        rw [htext]
        rfl
      · exact .node rfl (by simpa using quiet_wordTree rfl _ _ _ _)
  | some newName =>
      let middle :=
        before ++ [' '] ++ name.text.toList ++ [' '] ++ ['a', 's'] ++ [' ']
      let inner := wordTree .name .identifier (before ++ [' ']) name.text.toList
        (textOf [.asWord, .name newName] ++ rest)
      let renamed :=
        wordTree .newName .identifier middle newName.text.toList rest
      refine ⟨.node .plain .other inner.start renamed.stop [inner, renamed], ?_,
        ?_, fun _ _ _ => rfl, fun _ _ _ => rfl⟩
      · have htext :=
          textOf_wordTree .name .identifier (before ++ [' ']) name
            (textOf [.asWord, .name newName] ++ rest)
        have hnewText :=
          textOf_wordTree .newName .identifier middle newName rest
        change some (ModuleItem.textOf inner, ModuleItem.textOf renamed) = _
        rw [htext, hnewText]
        rfl
      · refine .node rfl ?_
        simp only [List.forall_mem_cons]
        exact ⟨quiet_wordTree rfl _ _ _ _, quiet_wordTree rfl _ _ _ _, by simp⟩

private theorem exists_entryTrees (entry : NameEntry) (others : List NameEntry)
    (before rest : List Char) :
    ∃ trees, trees.filterMap namePair? = (entry :: others).map NameEntry.pair ∧
      (∀ tree ∈ trees, tree.Quiet) ∧
      ∀ start stop pieces, namesOf? (cut before (entry.listWords others) rest ++
        ⟨.closing, start, stop⟩ :: pieces) =
        some (trees, stop, pieces) := by
  induction others generalizing entry before with
  | nil =>
      obtain ⟨tree, hpair, hquiet, hclosing, -⟩ :=
        exists_entryTree entry before rest
      exact ⟨[tree], by simp [hpair], by simpa using hquiet, hclosing⟩
  | cons next others ih =>
      obtain ⟨tree, hpair, hquiet, -, hcomma⟩ :=
        exists_entryTree entry before
          (textOf (.comma :: next.listWords others) ++ rest)
      obtain ⟨trees, hpairs, hquiets, hnames⟩ :=
        ih next (before ++ textOf entry.words ++ [] ++ [','])
      refine ⟨tree :: trees, by simp [hpair, hpairs],
        List.forall_mem_cons.2 ⟨hquiet, hquiets⟩, ?_⟩
      intro start stop pieces
      rw [NameEntry.listWords, StatementWord.cut_append, List.append_assoc]
      exact (hcomma _ _ _).trans
        (congrArg (Option.map _) (hnames start stop pieces))

/-! ## Clauses and sources -/

structure SaysSource (tree : SourceTree) (source : PlainSpecifier) : Prop where
  label : tree.label = .source
  kind : tree.kind = .string
  value : stringValue? tree = some source.text
  quiet : tree.Quiet

structure SaysNames (tree : SourceTree) (kind : Kind) (names : NameList) :
    Prop where
  label : tree.label = .plain
  kind : tree.kind = kind
  pairs : tree.children.filterMap namePair? = names.pairs
  quiet : tree.Quiet

structure SaysWhole (tree : SourceTree) (kind : Kind) (name : PlainName) :
    Prop where
  label : tree.label = .plain
  kind : tree.kind = kind
  child : ∃ child, tree.children = [child] ∧ child.kind = .identifier ∧
    ModuleItem.textOf child = name.text
  quiet : tree.Quiet

structure SaysBindings (tree : SourceTree) (bindings : List Binding) :
    Prop where
  label : tree.label = .plain
  kind : tree.kind = .importClause
  bindings : clauseBindings tree = bindings
  quiet : tree.Quiet

theorem saysSource_wordTree (source : PlainSpecifier)
    (before rest : List Char) :
    SaysSource (wordTree .source .string before
      (StatementWord.letters (.quoted source)) rest) source :=
  ⟨rfl, rfl, stringValue?_wordTree source before rest,
    quiet_wordTree rfl _ _ _ _⟩

private theorem sourceOf?_cut (source : PlainSpecifier)
    (before last rest : List Char) :
    ∃ tree, sourceOf? (cut before [.quoted source] (';' :: rest) ++
      [endingPiece last rest]) =
      some (tree, Cursor.after (last ++ [';']) rest) ∧ SaysSource tree source :=
  ⟨_, rfl, saysSource_wordTree source _ _⟩

theorem fromSourceOf?_cut (source : PlainSpecifier)
    (before last rest : List Char) :
    ∃ tree, fromSourceOf? (cut before source.words (';' :: rest) ++
      [endingPiece last rest]) =
      some (tree, Cursor.after (last ++ [';']) rest) ∧ SaysSource tree source :=
  ⟨_, rfl, saysSource_wordTree source _ _⟩

theorem severalOf?_names (whole named : Kind)
    (hnamed : isConstruct named = false) (names : NameList)
    (before rest : List Char) (pieces : List Piece) :
    ∃ tree, severalOf? whole named (cut before names.words rest ++ pieces) =
      some (tree, pieces) ∧
      SaysNames tree named names := by
  obtain ⟨trees, hpairs, hquiet, hnames⟩ := exists_entryTrees names.first
    names.others (before ++ [' '] ++ ['\x7b']) (textOf [.closing] ++ rest)
  rw [NameList.words, StatementWord.cut_append, List.append_assoc]
  exact ⟨_, congrArg (Option.map _) (hnames _ _ _), rfl, rfl, hpairs,
    .node hnamed hquiet⟩

theorem severalOf?_whole (whole named : Kind)
    (hwhole : isConstruct whole = false) (name : PlainName)
    (before rest : List Char) (pieces : List Piece) :
    ∃ tree,
      severalOf? whole named (cut before [.star, .asWord, .name name] rest ++
        pieces) = some (tree, pieces) ∧
      SaysWhole tree whole name := by
  have hchild := textOf_wordTree .plain .identifier (before ++ [' '] ++ ['*'] ++
    [' '] ++ ['a', 's'] ++ [' ']) name rest
  exact ⟨_, rfl, rfl, rfl, ⟨_, rfl, rfl, hchild⟩,
    .node hwhole (List.forall_mem_singleton.2 (.node rfl (by simp)))⟩

theorem SaysNames.clauseBindings_eq {tree : SourceTree} {names : NameList}
    (h : SaysNames tree .namedImports names) (label : Label)
    (start stop : Cursor) :
    clauseBindings (.node label .importClause start stop [tree]) =
      names.bindings := by
  simp [clauseBindings, SourceTree.children_node, h.kind, NameList.bindings,
    ← h.pairs]

theorem SaysWhole.clauseBindings_eq {tree : SourceTree} {name : PlainName}
    (h : SaysWhole tree .namespaceImport name) (label : Label)
    (start stop : Cursor) :
    clauseBindings (.node label .importClause start stop [tree]) =
      [.wholeAs name.text] := by
  obtain ⟨child, hchildren, hkind, htext⟩ := h.child
  simp [clauseBindings, SourceTree.children_node, h.kind,
    SourceTree.childOfKind?, hchildren, hkind, htext]

theorem importClauseOf?_of_several {pieces rest : List Piece}
    {several : SourceTree}
    (h : severalOf? .namespaceImport .namedImports pieces =
      some (several, rest)) :
    importClauseOf? pieces =
      some (.node .plain .importClause several.start several.stop [several],
        rest) := by
  unfold importClauseOf?
  split
  · cases h
  · cases h
  · rw [h]
    rfl

def MakesClause (words : List StatementWord) (bindings : List Binding) : Prop :=
  ∀ before rest start stop pieces, ∃ clause,
    importClauseOf? (cut before words rest ++
      ⟨.fromWord, start, stop⟩ :: pieces) =
      some (clause, ⟨.fromWord, start, stop⟩ :: pieces) ∧
      SaysBindings clause bindings

private theorem makesClause_default (name : PlainName) :
    MakesClause [.name name] [.defaultAs name.text] := by
  intro before rest start stop pieces
  have htext := textOf_wordTree .plain .identifier (before ++ [' ']) name rest
  refine ⟨_, rfl, rfl, rfl, ?_,
    .node rfl (List.forall_mem_singleton.2 (.node rfl (by simp)))⟩
  exact congrArg (fun text => [Binding.defaultAs text]) htext

private theorem makesClause_whole (name : PlainName) :
    MakesClause [.star, .asWord, .name name] [.wholeAs name.text] := by
  intro before rest start stop pieces
  obtain ⟨several, hseveral, hshown⟩ :=
    severalOf?_whole .namespaceImport .namedImports rfl name before rest
      (⟨.fromWord, start, stop⟩ :: pieces)
  exact ⟨_, importClauseOf?_of_several hseveral, rfl, rfl,
    hshown.clauseBindings_eq _ _ _,
    .node rfl (List.forall_mem_singleton.2 hshown.quiet)⟩

private theorem makesClause_names (names : NameList) :
    MakesClause names.words names.bindings := by
  intro before rest start stop pieces
  obtain ⟨several, hseveral, hshown⟩ :=
    severalOf?_names .namespaceImport .namedImports rfl names before rest
      (⟨.fromWord, start, stop⟩ :: pieces)
  exact ⟨_, importClauseOf?_of_several hseveral, rfl, rfl,
    hshown.clauseBindings_eq _ _ _,
    .node rfl (List.forall_mem_singleton.2 hshown.quiet)⟩

private theorem makesClause_defaultAndNames (name : PlainName)
    (names : NameList) :
    MakesClause (.name name :: .comma :: names.words)
      (.defaultAs name.text :: names.bindings) := by
  intro before rest start stop pieces
  have htext :=
    textOf_wordTree .plain .identifier (before ++ [' ']) name
      (textOf (.comma :: names.words) ++ rest)
  obtain ⟨several, hseveral, hshown⟩ := severalOf?_names .namespaceImport
    .namedImports rfl names (before ++ [' '] ++ name.text.toList ++ [] ++ [','])
    rest (⟨.fromWord, start, stop⟩ :: pieces)
  have hbindings := hshown.clauseBindings_eq .plain several.start several.stop
  refine ⟨_, congrArg (Option.map _) hseveral, rfl, rfl, ?_, .node rfl ?_⟩
  · exact congrArg₂ (fun text bindings => Binding.defaultAs text :: bindings)
      htext hbindings
  · exact List.forall_mem_cons.2 ⟨.node rfl (by simp),
      List.forall_mem_singleton.2 hshown.quiet⟩

/-! ## Statements -/

private theorem importOf?_of_clause {start stop : Cursor}
    {pieces rest : List Piece} {clause source : SourceTree}
    (hclause : importClauseOf? pieces = some (clause, rest))
    (hsource : fromSourceOf? rest = some (source, stop)) :
    importOf? start pieces =
      some (.node .plain .importStatement start stop [clause, source]) := by
  have hnone : sourceOf? pieces = none := by
    unfold sourceOf?
    split
    · cases hclause
    · rfl
  simp [importOf?, hnone, hclause, hsource]

private theorem importOf?_of_source {start stop : Cursor} {pieces : List Piece}
    {source : SourceTree} (hsource : sourceOf? pieces = some (source, stop)) :
    importOf? start pieces =
      some (.node .plain .importStatement start stop [source]) := by
  simp [importOf?, hsource]

private theorem exportOf?_of_several {start stop : Cursor}
    {pieces rest : List Piece} {several source : SourceTree}
    (hseveral : severalOf? .namespaceExport .exportClause pieces =
      some (several, rest))
    (hsource : fromSourceOf? rest = some (source, stop)) :
    exportOf? start pieces =
      some (.node .plain .exportStatement start stop [several, source]) := by
  unfold exportOf?
  rw [hseveral]
  split
  · next heq =>
    cases heq
    cases hsource
  · next heq =>
    cases heq
    rw [hsource]
    rfl
  · next heq => cases heq

private theorem exportOf?_all {start stop : Cursor} {before more : List Char}
    {rest : List Piece} {source : SourceTree}
    (hsource : fromSourceOf? rest = some (source, stop)) :
    exportOf? start (cut before [.star] more ++ rest) =
      some (.node .plain .exportStatement start stop [source]) := by
  unfold fromSourceOf? at hsource
  split at hsource
  · simp [cut, StatementWord.kind, exportOf?, severalOf?,
      fromSourceOf?, hsource]
  · cases hsource

private theorem exportOf?_local {start stop last : Cursor} {pieces : List Piece}
    {several : SourceTree}
    (hseveral : severalOf? .namespaceExport .exportClause pieces =
      some (several, [⟨.ending, last, stop⟩]))
    (hkind : several.kind = .exportClause) :
    exportOf? start pieces =
      some (.node .plain .exportStatement start stop [several]) := by
  simp [exportOf?, hseveral, hkind]

end Grammar.Piece

namespace ModuleItem

open Grammar.Piece

variable {lineOffset : Nat} {start stop : Cursor} {specifier : PlainSpecifier}
    {source : SourceTree}

private theorem staticImport?_bare (hsource : SaysSource source specifier) :
    staticImport? lineOffset
      (.node .plain .importStatement start stop [source]) =
      some
        (.staticImport (siteAt lineOffset
          (.node .plain .importStatement start stop [source]) specifier.text []
        (.ofBindings []))) := by
  simp [staticImport?, SourceTree.children_node, SourceTree.child?,
    hsource.kind, hsource.label, hsource.value]

private theorem staticImport?_clause {clause : SourceTree}
    {bindings : List Binding} (hclause : SaysBindings clause bindings)
    (hsource : SaysSource source specifier) :
    staticImport? lineOffset
      (.node .plain .importStatement start stop [clause, source]) =
      some
        (.staticImport (siteAt lineOffset (.node .plain .importStatement start
          stop [clause, source]) specifier.text
        bindings (.ofBindings bindings))) := by
  simp [staticImport?, SourceTree.children_node, SourceTree.child?,
    hclause.kind, hclause.label, hclause.bindings, hsource.kind, hsource.label,
    hsource.value]

private theorem export?_all (hsource : SaysSource source specifier) :
    export? lineOffset (.node .plain .exportStatement start stop [source]) =
      some
        (.reExportAll (siteAt lineOffset
          (.node .plain .exportStatement start stop [source]) specifier.text
        [.wholeAs wholeName] .whole) none) := by
  simp [export?, passedOn, wholeNewName?, SourceTree.children_node,
    SourceTree.child?, SourceTree.childOfKind?, hsource.kind, hsource.label,
    hsource.value]

private theorem export?_whole {several : SourceTree} {name : PlainName}
    (hseveral : SaysWhole several .namespaceExport name)
    (hsource : SaysSource source specifier) :
    export? lineOffset
      (.node .plain .exportStatement start stop [several, source]) =
      some
        (.reExportAll (siteAt lineOffset (.node .plain .exportStatement start
          stop [several, source]) specifier.text
        [.wholeAs name.text] .whole) (some name.text)) := by
  obtain ⟨child, hchildren, hkind, htext⟩ := hseveral.child
  have hname : nameOf child = name.text := by
    rw [nameOf, hkind]
    exact htext
  simp [export?, passedOn, wholeNewName?, SourceTree.children_node,
    SourceTree.child?, SourceTree.childOfKind?, hsource.kind, hsource.label,
    hsource.value, hseveral.kind, hseveral.label, hchildren, hkind, hname]

private theorem export?_names {several : SourceTree} {names : NameList}
    (hseveral : SaysNames several .exportClause names)
    (hsource : SaysSource source specifier) :
    export? lineOffset
      (.node .plain .exportStatement start stop [several, source]) =
      some
        (.reExport (siteAt lineOffset (.node .plain .exportStatement start stop
          [several, source]) specifier.text
        (names.pairs.map fun (name, _) => .named name)
        (.ofBindings (names.pairs.map fun (name, _) => .named name)))
        names.pairs) := by
  have hnames : clauseNames several = names.pairs := hseveral.pairs
  simp [export?, passedOn, SourceTree.children_node, SourceTree.child?,
    SourceTree.childOfKind?, hsource.label, hsource.value, hseveral.kind,
    hseveral.label, hnames]

private theorem export?_local {several : SourceTree} {names : NameList}
    (hseveral : SaysNames several .exportClause names) :
    export? lineOffset (.node .plain .exportStatement start stop [several]) =
      some (.exportClause names.pairs) := by
  have hnames : clauseNames several = names.pairs := hseveral.pairs
  simp [export?, SourceTree.children_node, SourceTree.child?,
    SourceTree.childOfKind?, hseveral.kind, hseveral.label, hnames]

end ModuleItem

namespace ModuleStatement

open Grammar.Piece

def tree (statement : ModuleStatement) (before rest : List Char) (kind : Kind)
    (children : List SourceTree) :
    SourceTree :=
  .node .plain kind (Cursor.after before (statement.text.toList ++ rest))
    (Cursor.after (before ++ statement.text.toList) rest) children

theorem siteAt_tree (statement : ModuleStatement) {before : List Char}
    (hcolumn : columnAfter before = 0) (rest : List Char) (kind : Kind)
    (children : List SourceTree) (lineOffset : Nat) (specifier : String)
    (bindings : List Binding) (importKind : ImportKind) :
    ModuleItem.siteAt lineOffset (statement.tree before rest kind children)
      specifier bindings importKind =
      ⟨specifier, bindings, importKind, before.count '\n' + 1 + lineOffset, 1,
        statement.text⟩ := by
  have htext : ModuleItem.textOf (statement.tree before rest kind children) =
      statement.text := by
    rw [ModuleItem.textOf, SourceTree.text, tree, SourceTree.start,
      SourceTree.stop, Cursor.textUntil_after, String.ofList_toList]
  rw [ModuleItem.siteAt, htext]
  simp [tree, SourceTree.start, Cursor.after, hcolumn]

/-- Whether a statement at a place is read as a tree with these children, whose
only item is that of the statement. -/
structure ReadAs (statement : ModuleStatement) (before rest : List Char)
    (kind : Kind) (children : List SourceTree) :
    Prop where
  read :
    Grammar.readPlain? (Cursor.after before (statement.text.toList ++ rest)) =
    some (statement.tree before rest kind children)
  quiet : ∀ child ∈ children, child.Quiet
  own : ∀ lineOffset,
    ModuleItem.own? lineOffset (statement.tree before rest kind children) [] =
    some (statement.item (before.count '\n' + 1 + lineOffset))

theorem tree_eq (statement : ModuleStatement) (before rest : List Char)
    (kind : Kind) (children : List SourceTree) :
    statement.tree before rest kind children =
      .node .plain kind (Cursor.after before (statement.text.toList ++ rest))
        (Cursor.after (before ++ statement.verb.toList ++
          textOf statement.words ++ [';']) rest) children := by
  have hlast : before ++ statement.verb.toList ++
      textOf statement.words ++ [';'] =
      before ++ statement.text.toList := by
    simp [statement.toList_text]
  rw [hlast, tree]

theorem afterVerb_eq {statement : ModuleStatement}
    {first second : List StatementWord}
    (hwords : statement.words = first ++ second) (before rest : List Char) :
    afterVerb statement before rest =
      cut (before ++ statement.verb.toList) first (textOf second ++
        ';' :: rest) ++
        (cut (before ++ statement.verb.toList ++ textOf first) second
          (';' :: rest) ++
          [endingPiece (before ++ statement.verb.toList ++
            textOf statement.words) rest]) := by
  rw [afterVerb, hwords, StatementWord.cut_append, List.append_assoc]

theorem readPlain?_import {statement : ModuleStatement}
    (hverb : statement.verbKind = .importWord) (before rest : List Char) :
    Grammar.readPlain? (Cursor.after before (statement.text.toList ++ rest)) =
      importOf? (Cursor.after before (statement.text.toList ++ rest))
      (afterVerb statement before rest) := by
  rw [Grammar.readPlain?, read?_statement, Option.bind_some, hverb,
    statementOf?]

theorem readPlain?_export {statement : ModuleStatement}
    (hverb : statement.verbKind = .exportWord) (before rest : List Char) :
    Grammar.readPlain? (Cursor.after before (statement.text.toList ++ rest)) =
      exportOf? (Cursor.after before (statement.text.toList ++ rest))
      (afterVerb statement before rest) := by
  rw [Grammar.readPlain?, read?_statement, Option.bind_some, hverb,
    statementOf?]

theorem readAs_import {statement : ModuleStatement} {words : List StatementWord}
    {source : PlainSpecifier} {bindings : List Binding}
    (hverb : statement.verbKind = .importWord)
    (hwords : statement.words = words ++ source.words)
    (hclause : MakesClause words bindings)
    (hitem : ∀ line, statement.item line =
      .staticImport ⟨source.text, bindings, .ofBindings bindings, line, 1,
        statement.text⟩)
    {before : List Char} (hcolumn : columnAfter before = 0) (rest : List Char) :
    ∃ children, statement.ReadAs before rest .importStatement children := by
  obtain ⟨tree, htree, hsource⟩ := fromSourceOf?_cut source (before ++
    statement.verb.toList ++ textOf words) (before ++ statement.verb.toList ++
      textOf statement.words) rest
  obtain ⟨clause, hfound, hshown⟩ :=
    hclause (before ++ statement.verb.toList) (textOf source.words ++
      ';' :: rest) _ _ _
  refine ⟨[clause, tree], ?_, ?_, fun lineOffset => ?_⟩
  · rw [readPlain?_import hverb, tree_eq, afterVerb_eq hwords]
    exact importOf?_of_clause hfound htree
  · exact List.forall_mem_cons.2 ⟨hshown.quiet,
      List.forall_mem_singleton.2 hsource.quiet⟩
  · refine (ModuleItem.staticImport?_clause hshown hsource).trans ?_
    rw [← ModuleStatement.tree, siteAt_tree statement hcolumn, hitem]

private theorem readAs_importBare (source : PlainSpecifier) {before : List Char}
    (hcolumn : columnAfter before = 0)
    (rest : List Char) :
    ∃ children,
      (importBare source).ReadAs before rest .importStatement children := by
  obtain ⟨tree, htree, hsource⟩ := sourceOf?_cut source (before ++
    "import".toList) (before ++ "import".toList ++ textOf [.quoted source]) rest
  refine ⟨[tree], ?_, List.forall_mem_singleton.2 hsource.quiet,
    fun lineOffset => ?_⟩
  · rw [readPlain?_import rfl, tree_eq]
    exact importOf?_of_source htree
  · refine (ModuleItem.staticImport?_bare hsource).trans ?_
    rw [← ModuleStatement.tree, siteAt_tree _ hcolumn]
    rfl

theorem readAs_export {statement : ModuleStatement} {words : List StatementWord}
    {source : PlainSpecifier} (hverb : statement.verbKind = .exportWord)
    (hwords : statement.words = words ++ source.words) {before rest : List Char}
    (hseveral : ∀ pieces, ∃ several, severalOf? .namespaceExport .exportClause
        (cut (before ++ statement.verb.toList) words (textOf source.words ++
          ';' :: rest) ++ pieces) =
          some (several, pieces) ∧ several.Quiet ∧
          ∀ tree lineOffset, SaysSource tree source →
      ModuleItem.export? lineOffset (statement.tree before rest .exportStatement
        [several, tree]) =
        some (statement.item (before.count '\n' + 1 + lineOffset))) :
    ∃ children, statement.ReadAs before rest .exportStatement children := by
  obtain ⟨tree, htree, hsource⟩ := fromSourceOf?_cut source (before ++
    statement.verb.toList ++ textOf words) (before ++ statement.verb.toList ++
      textOf statement.words) rest
  obtain ⟨several, hfound, hquiet, hitem⟩ := hseveral _
  refine ⟨[several, tree], ?_, ?_, fun lineOffset =>
    hitem tree lineOffset hsource⟩
  · rw [readPlain?_export hverb, tree_eq, afterVerb_eq hwords]
    exact exportOf?_of_several hfound htree
  · exact List.forall_mem_cons.2 ⟨hquiet,
      List.forall_mem_singleton.2 hsource.quiet⟩

private theorem readAs_passNames (names : NameList) (source : PlainSpecifier)
    {before : List Char} (hcolumn : columnAfter before = 0) (rest : List Char) :
    ∃ children,
      (passNames names source).ReadAs before rest
        .exportStatement children := by
  refine readAs_export rfl rfl fun pieces => ?_
  obtain ⟨several, hfound, hshown⟩ := severalOf?_names .namespaceExport
    .exportClause rfl names (before ++ (passNames names source).verb.toList)
    (textOf source.words ++ ';' :: rest) pieces
  refine ⟨several, hfound, hshown.quiet, fun tree lineOffset hsource => ?_⟩
  refine (ModuleItem.export?_names hshown hsource).trans ?_
  rw [← ModuleStatement.tree, siteAt_tree _ hcolumn]
  rfl

private theorem readAs_passWhole (name : PlainName) (source : PlainSpecifier)
    {before : List Char} (hcolumn : columnAfter before = 0) (rest : List Char) :
    ∃ children,
      (passWhole name source).ReadAs before rest .exportStatement children := by
  have hwords : (passWhole name source).words = [.star, .asWord, .name name] ++
    source.words := rfl
  refine readAs_export rfl hwords fun pieces => ?_
  obtain ⟨several, hfound, hshown⟩ := severalOf?_whole .namespaceExport
    .exportClause rfl name (before ++ (passWhole name source).verb.toList)
    (textOf source.words ++ ';' :: rest) pieces
  refine ⟨several, hfound, hshown.quiet, fun tree lineOffset hsource => ?_⟩
  refine (ModuleItem.export?_whole hshown hsource).trans ?_
  rw [← ModuleStatement.tree, siteAt_tree _ hcolumn]
  rfl

private theorem readAs_passAll (source : PlainSpecifier) {before : List Char}
    (hcolumn : columnAfter before = 0)
    (rest : List Char) :
    ∃ children,
      (passAll source).ReadAs before rest .exportStatement children := by
  have hwords : (passAll source).words = [.star] ++ source.words := rfl
  obtain ⟨tree, htree, hsource⟩ := fromSourceOf?_cut source (before ++
    "export".toList ++ textOf [.star]) (before ++ "export".toList ++
      textOf (.star :: source.words)) rest
  refine ⟨[tree], ?_, List.forall_mem_singleton.2 hsource.quiet,
    fun lineOffset => ?_⟩
  · rw [readPlain?_export rfl, tree_eq, afterVerb_eq hwords]
    exact exportOf?_all htree
  · refine (ModuleItem.export?_all hsource).trans ?_
    rw [← ModuleStatement.tree, siteAt_tree _ hcolumn]
    rfl

private theorem readAs_exportNames (names : NameList)
    (before rest : List Char) :
    ∃ children,
      (exportNames names).ReadAs before rest .exportStatement children := by
  obtain ⟨several, hfound, hshown⟩ := severalOf?_names .namespaceExport
    .exportClause rfl names (before ++ "export".toList) (';' :: rest)
    [endingPiece (before ++ "export".toList ++ textOf names.words) rest]
  refine ⟨[several], ?_, List.forall_mem_singleton.2 hshown.quiet,
    fun lineOffset => ModuleItem.export?_local hshown⟩
  rw [readPlain?_export rfl, tree_eq]
  exact exportOf?_local hfound hshown.kind

theorem exists_readAs (statement : ModuleStatement) {before : List Char}
    (hcolumn : columnAfter before = 0) (rest : List Char) :
    ∃ kind children, statement.ReadAs before rest kind children := by
  cases statement with
  | importBare source => exact ⟨_, readAs_importBare source hcolumn rest⟩
  | importDefault name source =>
      exact ⟨_, readAs_import rfl rfl (makesClause_default name) (fun _ => rfl)
        hcolumn rest⟩
  | importWhole name source =>
    exact ⟨_, readAs_import rfl rfl (makesClause_whole name) (fun _ => rfl)
      hcolumn rest⟩
  | importNames names source =>
    exact ⟨_, readAs_import rfl rfl (makesClause_names names) (fun _ => rfl)
      hcolumn rest⟩
  | importDefaultAndNames name names source =>
      exact ⟨_, readAs_import rfl rfl (makesClause_defaultAndNames name names)
        (fun _ => rfl) hcolumn rest⟩
  | passNames names source =>
    exact ⟨_, readAs_passNames names source hcolumn rest⟩
  | passAll source => exact ⟨_, readAs_passAll source hcolumn rest⟩
  | passWhole name source =>
    exact ⟨_, readAs_passWhole name source hcolumn rest⟩
  | exportNames names => exact ⟨_, readAs_exportNames names before rest⟩

end ModuleStatement

end ImportAtlas
