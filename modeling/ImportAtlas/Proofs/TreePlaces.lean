import ImportAtlas.Module.Analysis
import ImportAtlas.Proofs.ReaderPlaces
import ImportAtlas.Proofs.SourcePlace

/-!
# Places of syntax trees

All trees of a script begin and end inside its text, those of its preamble as
well as those that are read by the rules.  Every import that is read off a
script stands where one of these trees begins.
-/

namespace ImportAtlas

namespace Grammar

open Source (Cursor)

variable {P : Cursor → Prop}

inductive SourceTree.Stands (P : Cursor → Prop) : SourceTree → Prop
  | node {label : Label} {kind : Kind} {start stop : Cursor}
      {children : List SourceTree} (hstart : P start) (hstop : P stop)
      (hchildren : ∀ child ∈ children, Stands P child) :
      Stands P (.node label kind start stop children)

theorem SourceTree.Stands.start {tree : SourceTree} (h : tree.Stands P) :
    P tree.start := by
  cases h
  assumption

theorem SourceTree.Stands.stop {tree : SourceTree} (h : tree.Stands P) :
    P tree.stop := by
  cases h
  assumption

theorem SourceTree.Stands.children {tree : SourceTree} (h : tree.Stands P) :
    ∀ child ∈ tree.children, child.Stands P := by
  cases h
  assumption

/-! ## Trees that have grown -/

mutual

theorem Growth.stands_sourceTrees (table : Table) :
    ∀ (tree : Growth), tree.Stands P → ∀ (label : Label) (kind? : Option Kind)
      (others : List SourceTree), (∀ other ∈ others, other.Stands P) →
    ∀ source ∈ tree.sourceTrees table label kind? others, source.Stands P
  | .leaf token isComment start stop, .leaf hstart hstop, label, kind?, others,
      hothers => by
    rw [Growth.sourceTrees]
    split
    · exact List.forall_mem_cons.2 ⟨.node hstart hstop (by simp), hothers⟩
    · exact hothers
  | .branch stage start stop weight children, .branch hstart hstop hchildren,
      label, kind?, others, hothers => by
    rw [Growth.sourceTrees]
    split
    · refine List.forall_mem_cons.2 ⟨.node hstart hstop ?_, hothers⟩
      exact Growth.stands_childTrees table children hchildren _ _ [] (by simp)
    · exact Growth.stands_childTrees table children hchildren _ _ others hothers

theorem Growth.stands_childTrees (table : Table) :
    ∀ (children : List Growth), (∀ child ∈ children, child.Stands P) →
    ∀ (label : Label) (roles : List Role)
      (others : List SourceTree), (∀ other ∈ others, other.Stands P) →
    ∀ source ∈ childTrees table label children roles others, source.Stands P
  | [], _, _, _, _, hothers => by
    rw [Growth.childTrees]
    exact hothers
  | child :: children, hchildren, label, roles, others, hothers => by
    obtain ⟨hchild, hchildren⟩ := List.forall_mem_cons.1 hchildren
    unfold Growth.childTrees
    split
    · exact Growth.stands_sourceTrees table child hchild _ _ _
        (Growth.stands_childTrees table children hchildren _ _ others hothers)
    · exact Growth.stands_sourceTrees table child hchild _ _ _
        (Growth.stands_childTrees table children hchildren _ _ others hothers)

end

private theorem stands_readByRules (hforward : ∀ cursor count, P cursor →
      P (cursor.advance count)) {table : Table}
    {entry : Nat} {place : Cursor} (hplace : P place) {trees : List SourceTree}
    (h : readByRules table entry place = .ok trees) :
    ∀ tree ∈ trees, tree.Stands P := by
  unfold readByRules at h
  cases hread : Reader.read table entry place with
  | error farthest => simp [hread, Except.map] at h
  | ok grown =>
      simp only [hread, Except.map, Except.ok.injEq] at h
      rw [← h]
      exact Growth.stands_sourceTrees table grown
        (Reader.stands_read table hforward hplace hread) _ _ [] (by simp)

/-! ## Statements of a preamble -/

namespace Piece

def Stand (P : Cursor → Prop) (pieces : List Piece) : Prop :=
  ∀ piece ∈ pieces, P piece.start ∧ P piece.stop

@[simp]
theorem stand_cons {piece : Piece} {pieces : List Piece} :
    Stand P (piece :: pieces) ↔
      (P piece.start ∧ P piece.stop) ∧ Stand P pieces :=
  List.forall_mem_cons

private theorem stand_readWithin? (hforward : ∀ cursor count, P cursor →
      P (cursor.advance count)) (budget : List Char)
    {place : Cursor} (hplace : P place) :
    ∀ pieces ∈ readWithin? budget place, Stand P pieces := by
  induction budget generalizing place with
  | nil => simp [readWithin?]
  | cons _ budget ih =>
      have hstart := hforward _ (Source.countWhile (· == ' ') place.rest) hplace
      rw [readWithin?]
      dsimp only
      split
      · simp
      · next kind length _ =>
        have hstop := hforward _ length hstart
        split
        · rintro pieces ⟨⟩
          exact stand_cons.2 ⟨⟨hstart, hstop⟩, by simp [Stand]⟩
        · rintro pieces hpieces
          obtain ⟨later, hlater, rfl⟩ := Option.map_eq_some_iff.1 hpieces
          exact stand_cons.2 ⟨⟨hstart, hstop⟩, ih hstop later hlater⟩

theorem stands_nameTree {label : Label} {start stop : Cursor} (hstart : P start)
    (hstop : P stop) :
    (nameTree label start stop).Stands P :=
  .node hstart hstop (by simp)

theorem stands_keptTree {start stop : Cursor} (hstart : P start)
    (hstop : P stop) : (keptTree start stop).Stands P :=
  .node hstart hstop (by simpa using stands_nameTree hstart hstop)

theorem stands_renamedTree {start stop newStart newStop : Cursor}
    (hname : P start ∧ P stop) (hnewName : P newStart ∧ P newStop) :
    (renamedTree start stop newStart newStop).Stands P :=
  .node hname.1 hnewName.2 (by simp [stands_nameTree, hname, hnewName])

variable {pieces : List Piece}

theorem stands_sourceOf? (hpieces : Stand P pieces) {source : SourceTree}
    {stop : Cursor} (h : sourceOf? pieces = some (source, stop)) :
    source.Stands P ∧ P stop := by
  unfold sourceOf? at h
  split at h
  · simp only [stand_cons] at hpieces
    obtain ⟨⟨hstart, hstop⟩, ⟨-, hlast⟩, -⟩ := hpieces
    cases h
    exact ⟨.node hstart hstop (by simp), hlast⟩
  · cases h

theorem stands_fromSourceOf? (hpieces : Stand P pieces) {source : SourceTree}
    {stop : Cursor} (h : fromSourceOf? pieces = some (source, stop)) :
    source.Stands P ∧ P stop := by
  unfold fromSourceOf? at h
  split at h
  · exact stands_sourceOf? (stand_cons.1 hpieces).2 h
  · cases h

private theorem stands_namesOf? (hpieces : Stand P pieces)
    {names : List SourceTree} {stop : Cursor} {rest : List Piece}
    (h : namesOf? pieces = some (names, stop, rest)) :
    (∀ name ∈ names, name.Stands P) ∧ P stop ∧ Stand P rest := by
  fun_induction namesOf? pieces generalizing names with
  | case1 =>
      simp only [stand_cons] at hpieces
      cases h
      exact ⟨by simp [stands_keptTree, hpieces], hpieces.2.1.2, hpieces.2.2⟩
  | case2 start stop _ _ pieces ih =>
      simp only [stand_cons] at hpieces
      obtain ⟨⟨later, _, _⟩, hlater, hnames⟩ := Option.map_eq_some_iff.1 h
      cases hnames
      obtain ⟨hnames, hrest⟩ := ih hpieces.2.2 hlater
      exact ⟨List.forall_mem_cons.2 ⟨stands_keptTree hpieces.1.1 hpieces.1.2,
        hnames⟩, hrest⟩
  | case3 =>
      simp only [stand_cons] at hpieces
      cases h
      exact ⟨by simp [stands_renamedTree, hpieces], hpieces.2.2.2.1.2,
        hpieces.2.2.2.2⟩
  | case4 start stop _ _ newStart newStop _ _ pieces ih =>
      simp only [stand_cons] at hpieces
      obtain ⟨⟨later, _, _⟩, hlater, hnames⟩ := Option.map_eq_some_iff.1 h
      cases hnames
      obtain ⟨hnames, hrest⟩ := ih hpieces.2.2.2.2 hlater
      exact ⟨List.forall_mem_cons.2 ⟨stands_renamedTree hpieces.1 hpieces.2.2.1,
        hnames⟩, hrest⟩
  | case5 => cases h

theorem stands_severalOf? (hpieces : Stand P pieces) {whole named : Kind}
    {several : SourceTree} {rest : List Piece}
    (h : severalOf? whole named pieces = some (several, rest)) :
    several.Stands P ∧ Stand P rest := by
  unfold severalOf? at h
  split at h
  · simp only [stand_cons] at hpieces
    obtain ⟨hstar, -, hname, hrest⟩ := hpieces
    cases h
    exact ⟨.node hstar.1 hname.2 (by simp [stands_nameTree, hname]), hrest⟩
  · obtain ⟨found, hfound, hseveral⟩ := Option.map_eq_some_iff.1 h
    cases hseveral
    obtain ⟨hopening, hpieces⟩ := stand_cons.1 hpieces
    obtain ⟨hnames, hstop, hrest⟩ := stands_namesOf? hpieces hfound
    exact ⟨.node hopening.1 hstop hnames, hrest⟩
  · cases h

private theorem stands_importClauseOf? (hpieces : Stand P pieces)
    {clause : SourceTree} {rest : List Piece}
    (h : importClauseOf? pieces = some (clause, rest)) :
    clause.Stands P ∧ Stand P rest := by
  unfold importClauseOf? at h
  split at h
  · simp only [stand_cons] at hpieces
    obtain ⟨hname, -, hpieces⟩ := hpieces
    obtain ⟨found, hfound, hclause⟩ := Option.map_eq_some_iff.1 h
    cases hclause
    obtain ⟨hseveral, hrest⟩ := stands_severalOf? hpieces hfound
    exact ⟨.node hname.1 hseveral.stop
      (by simp [stands_nameTree, hname, hseveral]), hrest⟩
  · obtain ⟨hname, hpieces⟩ := stand_cons.1 hpieces
    cases h
    exact ⟨.node hname.1 hname.2 (by simp [stands_nameTree, hname]), hpieces⟩
  · obtain ⟨found, hfound, hclause⟩ := Option.map_eq_some_iff.1 h
    cases hclause
    obtain ⟨hseveral, hrest⟩ := stands_severalOf? hpieces hfound
    exact ⟨.node hseveral.start hseveral.stop (by simpa using hseveral), hrest⟩

private theorem stands_importOf? (hpieces : Stand P pieces) {start : Cursor}
    (hstart : P start) {statement : SourceTree}
    (h : importOf? start pieces = some statement) : statement.Stands P := by
  unfold importOf? at h
  split at h
  · next source stop hfound =>
    obtain ⟨hsource, hstop⟩ := stands_sourceOf? hpieces hfound
    cases h
    exact .node hstart hstop (by simpa using hsource)
  · split at h
    · cases h
    · next clause rest hclause =>
      obtain ⟨hclause, hrest⟩ := stands_importClauseOf? hpieces hclause
      obtain ⟨found, hfound, rfl⟩ := Option.map_eq_some_iff.1 h
      obtain ⟨hsource, hstop⟩ := stands_fromSourceOf? hrest hfound
      exact .node hstart hstop (by simp [hclause, hsource])

private theorem stands_exportOf? (hpieces : Stand P pieces) {start : Cursor}
    (hstart : P start) {statement : SourceTree}
    (h : exportOf? start pieces = some statement) : statement.Stands P := by
  unfold exportOf? at h
  split at h
  · next several _ stop hseveral =>
    obtain ⟨hseveral, hrest⟩ := stands_severalOf? hpieces hseveral
    split at h
    · cases h
      exact .node hstart (stand_cons.1 hrest).1.2 (by simpa using hseveral)
    · cases h
  · next several rest _ hseveral =>
    obtain ⟨hseveral, hrest⟩ := stands_severalOf? hpieces hseveral
    obtain ⟨found, hfound, rfl⟩ := Option.map_eq_some_iff.1 h
    obtain ⟨hsource, hstop⟩ := stands_fromSourceOf? hrest hfound
    exact .node hstart hstop (by simp [hseveral, hsource])
  · split at h
    · obtain ⟨found, hfound, rfl⟩ := Option.map_eq_some_iff.1 h
      obtain ⟨hsource, hstop⟩ :=
        stands_fromSourceOf? (stand_cons.1 hpieces).2 hfound
      exact .node hstart hstop (by simpa using hsource)
    · cases h

private theorem stands_statementOf? (hpieces : Stand P pieces)
    {statement : SourceTree} (h : statementOf? pieces = some statement) :
    statement.Stands P := by
  unfold statementOf? at h
  split at h
  · exact stands_importOf? (stand_cons.1 hpieces).2 (stand_cons.1 hpieces).1.1 h
  · exact stands_exportOf? (stand_cons.1 hpieces).2 (stand_cons.1 hpieces).1.1 h
  · cases h

end Piece

section Preamble

variable (hforward : ∀ cursor count, P cursor → P (cursor.advance count))
    {place : Cursor}
include hforward

private theorem skipGapWithin_stands (budget : List Char) (hplace : P place) :
    P (skipGapWithin budget place) := by
  induction budget generalizing place with
  | nil => exact hplace
  | cons _ budget ih =>
      have hstart :=
        hforward _ (Source.countWhile Source.isBlank place.rest) hplace
      rw [skipGapWithin]
      split
      · exact ih (hforward _ _ hstart)
      · exact hstart

private theorem stands_readPreambleWithin (budget : List Char)
    (hplace : P place) :
    (∀ tree ∈ (readPreambleWithin budget place).1, tree.Stands P) ∧
      P (readPreambleWithin budget place).2 := by
  induction budget generalizing place with
  | nil => exact ⟨by simp [readPreambleWithin], hplace⟩
  | cons _ budget ih =>
      rw [readPreambleWithin]
      split
      · exact ⟨by simp, hplace⟩
      · next statement hstatement =>
        obtain ⟨pieces, hpieces, hstatement⟩ :=
          Option.bind_eq_some_iff.1 hstatement
        have hstands := Piece.stands_statementOf?
          (Piece.stand_readWithin? hforward _ (skipGapWithin_stands hforward
            _ hplace) pieces hpieces) hstatement
        obtain ⟨hlater, hlast⟩ := ih hstands.stop
        exact ⟨List.forall_mem_cons.2 ⟨hstands, hlater⟩, hlast⟩

end Preamble

/-! ## Whole scripts -/

inductive SourceTree.Within (trees : List SourceTree) : SourceTree → Prop
  | top {tree : SourceTree} (htree : tree ∈ trees) : Within trees tree
  | child {tree child : SourceTree} (htree : Within trees tree)
      (hchild : child ∈ tree.children) : Within trees child

theorem SourceTree.Within.stands {trees : List SourceTree}
    (htrees : ∀ tree ∈ trees, tree.Stands P) {tree : SourceTree}
    (h : SourceTree.Within trees tree) : tree.Stands P := by
  induction h with
  | top htree => exact htrees _ htree
  | child _ hchild ih => exact ih.children _ hchild

/-- The trees of a row of trees, each with the trees around it, the nearest
first. -/
inductive SourceTree.Under (trees : List SourceTree) :
    SourceTree → List SourceTree → Prop
  | top {tree : SourceTree} (htree : tree ∈ trees) : Under trees tree []
  | child {parent child : SourceTree} {above : List SourceTree}
      (hparent : Under trees parent above) (hchild : child ∈ parent.children) :
      Under trees child (parent :: above)

namespace SourceTree.Under

variable {trees above : List SourceTree} {tree outer : SourceTree}

theorem within (h : Under trees tree above) : Within trees tree := by
  induction h with
  | top htree => exact .top htree
  | child _ hchild ih => exact .child ih hchild

theorem above_within (h : Under trees tree above) (houter : outer ∈ above) :
    Within trees outer := by
  induction h with
  | top => cases houter
  | child hparent _ ih =>
      rcases List.mem_cons.1 houter with rfl | houter
      · exact hparent.within
      · exact ih houter

theorem of_children {parent : SourceTree}
    (h : Under parent.children tree above) :
    Under [parent] tree (above ++ [parent]) := by
  induction h with
  | top htree => exact .child (.top (List.mem_singleton_self _)) htree
  | child _ hchild ih => exact .child ih hchild

theorem mono {others : List SourceTree} (h : Under trees tree above)
    (htrees : trees ⊆ others) :
    Under others tree above := by
  induction h with
  | top htree => exact .top (htrees htree)
  | child _ hchild ih => exact .child ih hchild

end SourceTree.Under

theorem SourceTree.Within.exists_under {trees : List SourceTree}
    {tree : SourceTree} (h : SourceTree.Within trees tree) :
    ∃ above, SourceTree.Under trees tree above := by
  induction h with
  | top htree => exact ⟨[], .top htree⟩
  | child _ hchild ih =>
      obtain ⟨above, hparent⟩ := ih
      exact ⟨_, .child hparent hchild⟩

theorem readScript_stands {dialect : Dialect} {text : List Char}
    {trees : List SourceTree} (h : readScript dialect text = .ok trees) :
    ∀ tree ∈ trees, tree.Stands (Cursor.IsIn text) := by
  have hforward : ∀ cursor count, Cursor.IsIn text cursor →
      Cursor.IsIn text (cursor.advance count) :=
    fun _ count hcursor => hcursor.advance count
  obtain ⟨hstatements, hplace⟩ :=
    stands_readPreambleWithin hforward text (Cursor.isIn_start text)
  unfold readScript at h
  dsimp only at h
  split at h
  · cases h
    exact hstatements
  · generalize hread : readByRules _ _ _ = read at h
    cases read with
    | error farthest => cases h
    | ok later =>
        cases h
        intro tree htree
        rcases List.mem_append.1 htree with htree | htree
        · exact hstatements tree htree
        · exact stands_readByRules hforward hplace hread tree htree

end Grammar

/-! ## Imports -/

namespace ModuleItem

open Grammar (SourceTree Kind)

mutual

private theorem exists_own?_of_mem_ofTree {lineOffset : Nat} {item : ModuleItem}
    (outer : List SourceTree) :
    ∀ tree, item ∈ ofTree lineOffset outer tree →
      ∃ source above, SourceTree.Under [tree] source above ∧
        own? lineOffset source (above ++ outer) = some item
  | .node label kind start stop children, h => by
    rw [ofTree, List.mem_append] at h
    rcases h with h | h
    · exact ⟨_, [], .top (List.mem_singleton_self _), Option.mem_toList.1 h⟩
    · obtain ⟨source, above, hsource, hown⟩ :=
        exists_own?_of_mem_ofTrees _ children h
      exact ⟨source, _, SourceTree.Under.of_children hsource,
        by simpa using hown⟩

theorem exists_own?_of_mem_ofTrees {lineOffset : Nat} {item : ModuleItem}
    (outer : List SourceTree) :
    ∀ trees, item ∈ ofTrees lineOffset outer trees →
      ∃ source above, SourceTree.Under trees source above ∧
        own? lineOffset source (above ++ outer) = some item
  | [], h => by simp [ofTrees] at h
  | tree :: trees, h => by
    rw [ofTrees, List.mem_append] at h
    rcases h with h | h
    · obtain ⟨source, above, hsource, hown⟩ :=
        exists_own?_of_mem_ofTree outer tree h
      exact ⟨source, above, hsource.mono (by simp), hown⟩
    · obtain ⟨source, above, hsource, hown⟩ :=
        exists_own?_of_mem_ofTrees outer trees h
      exact ⟨source, above, hsource.mono (List.subset_cons_self tree trees),
        hown⟩

end

theorem ofTree_subset_ofTrees {lineOffset : Nat} {outer trees : List SourceTree}
    {tree : SourceTree} (h : tree ∈ trees) :
    ofTree lineOffset outer tree ⊆ ofTrees lineOffset outer trees := by
  induction trees with
  | nil => cases h
  | cons first trees ih =>
      rw [ofTrees]
      rcases List.mem_cons.1 h with rfl | h
      · exact List.subset_append_left _ _
      · exact List.subset_append_of_subset_right _ (ih h)

private theorem ofTree_subset_of_under {lineOffset : Nat}
    {outer trees above : List SourceTree} {tree : SourceTree}
    (h : SourceTree.Under trees tree above) :
    ofTree lineOffset (above ++ outer) tree ⊆
      ofTrees lineOffset outer trees := by
  induction h with
  | top htree => exact ofTree_subset_ofTrees htree
  | @child parent child above _ hchild ih =>
      obtain ⟨label, kind, start, stop, children⟩ := parent
      refine List.Subset.trans (ofTree_subset_ofTrees hchild)
        (List.Subset.trans ?_ ih)
      rw [ofTree]
      exact List.subset_append_right _ _

/-- The items of trees are the own items of all trees inside them, each visited
below the trees around it. -/
theorem mem_ofTrees_iff {lineOffset : Nat} {outer trees : List SourceTree}
    {item : ModuleItem} :
    item ∈ ofTrees lineOffset outer trees ↔
      ∃ tree above, SourceTree.Under trees tree above ∧
        own? lineOffset tree (above ++ outer) = some item := by
  refine ⟨exists_own?_of_mem_ofTrees outer trees, ?_⟩
  rintro ⟨⟨label, kind, start, stop, children⟩, above, hunder, hown⟩
  refine ofTree_subset_of_under hunder ?_
  rw [ofTree]
  exact List.mem_append_left _ (Option.mem_toList.2 hown)

def isConstruct : Kind → Bool
  | .importStatement | .exportStatement | .callExpression => true
  | _ => false

structure Describes (record : ImportRecord) (lineOffset : Nat)
    (tree : SourceTree) : Prop where
  construct : isConstruct tree.kind = true
  line : record.line = tree.start.line + 1 + lineOffset
  column : record.column = tree.start.column + 1
  text : record.sourceText = textOf tree

theorem describes_siteAt {tree : SourceTree}
    (htree : isConstruct tree.kind = true) (style : ImportStyle)
    (lineOffset : Nat) (specifier : String) (bindings : List Binding)
    (kind : ImportKind) :
    Describes (ModuleItem.record style
      (siteAt lineOffset tree specifier bindings kind)) lineOffset tree :=
  ⟨htree, rfl, rfl, rfl⟩

theorem lazyCall?_suffix {above outer : List SourceTree} {call : SourceTree}
    (h : lazyCall? above = some (call, outer)) :
    call :: outer <:+ above ∧ call.kind = .callExpression := by
  induction above with
  | nil => cases h
  | cons tree above ih =>
      unfold lazyCall? at h
      split at h
      · split at h
        · next arguments wrapper outer =>
          split at h
          · next hkinds =>
            split at h
            · split at h
              · cases h
                exact ⟨⟨[tree, arguments], rfl⟩, hkinds.2⟩
              · cases h
            · cases h
          · cases h
        · cases h
      · split at h
        · obtain ⟨hcall, hkind⟩ := ih h
          exact ⟨hcall.trans (List.suffix_cons tree above), hkind⟩
        · cases h

inductive CallReading (lineOffset : Nat) (call : SourceTree)
    (above : List SourceTree) (specifier : String) :
    ModuleItem → Prop
  | lazily {wrapper : SourceTree} {outer : List SourceTree}
      (hwrapper : lazyCall? above = some (wrapper, outer)) :
      CallReading lineOffset call above specifier
        (.lazyImport (siteAt lineOffset wrapper specifier
          ((declaratorName? outer).map Binding.defaultAs).toList .standard))
  | dynamically : CallReading lineOffset call above specifier
      (.dynamicImport (siteAt lineOffset call specifier
        (assignedBindings call above)
        (.ofBindings (assignedBindings call above))))
  | required : CallReading lineOffset call above specifier
      (.require (siteAt lineOffset call specifier (assignedBindings call above)
        (.ofBindings (assignedBindings call above))))

theorem callReading_of_call? {lineOffset : Nat} {call : SourceTree}
    {above : List SourceTree} {item : ModuleItem}
    (h : call? lineOffset call above = some item) :
    ∃ specifier, calledSpecifier? call = some specifier ∧
      CallReading lineOffset call above specifier item := by
  obtain ⟨callee, -, hitem⟩ := Option.bind_eq_some_iff.1 h
  split at hitem
  · obtain ⟨specifier, hspecifier, rfl⟩ := Option.map_eq_some_iff.1 hitem
    refine ⟨specifier, hspecifier, ?_⟩
    unfold dynamicItem
    split
    · next hwrapper => exact .lazily hwrapper
    · exact .dynamically
  · split at hitem
    · obtain ⟨specifier, hspecifier, rfl⟩ := Option.map_eq_some_iff.1 hitem
      exact ⟨specifier, hspecifier, .required⟩
    · cases hitem

theorem passedOn_or_import?_eq_none {lineOffset : Nat} {statement : SourceTree}
    {item : ModuleItem} (h : export? lineOffset statement = some item) :
    (∃ specifier,
      (statement.child? .source).bind stringValue? = some specifier ∧
      item = passedOn lineOffset statement specifier) ∨
      item.import? = none := by
  unfold export? at h
  split at h
  · next specifier hsource =>
    exact .inl ⟨specifier, hsource, (Option.some.inj h).symm⟩
  · right
    split at h
    · cases h
      rfl
    · split at h
      · cases h
        rfl
      · split at h <;> cases h
        rfl

/-- An import is read from the tree that makes it, or from the call of a
wrapper around this tree. -/
theorem exists_describes_of_own? {lineOffset : Nat} {tree : SourceTree}
    {above : List SourceTree} {item : ModuleItem}
    (h : own? lineOffset tree above = some item) :
    ∀ record ∈ item.import?, ∃ source ∈ tree :: above,
      Describes record lineOffset source := by
  unfold own? at h
  split at h
  · next hkind =>
    obtain ⟨specifier, -, rfl⟩ := Option.map_eq_some_iff.1 h
    rintro record ⟨⟩
    exact ⟨tree, by simp, describes_siteAt (by rw [hkind]; rfl) _ _ _ _ _⟩
  · next hkind =>
    rcases passedOn_or_import?_eq_none h with ⟨specifier, -, rfl⟩ | hnone
    · unfold passedOn
      split
      all_goals
        rintro record ⟨⟩
        exact ⟨tree, by simp, describes_siteAt (by rw [hkind]; rfl) _ _ _ _ _⟩
    · simp [hnone]
  · next hkind =>
    obtain ⟨specifier, -, hreading⟩ := callReading_of_call? h
    cases hreading with
    | @lazily wrapper outer hwrapper =>
        obtain ⟨hsuffix, hcall⟩ := lazyCall?_suffix hwrapper
        have hmem : wrapper ∈ above := hsuffix.subset (List.mem_cons_self ..)
        rintro record ⟨⟩
        exact ⟨wrapper, List.mem_cons_of_mem tree hmem,
          describes_siteAt (by rw [hcall]; rfl) _ _ _ _ _⟩
    | dynamically =>
        rintro record ⟨⟩
        exact ⟨tree, by simp, describes_siteAt (by rw [hkind]; rfl) _ _ _ _ _⟩
    | required =>
        rintro record ⟨⟩
        exact ⟨tree, by simp, describes_siteAt (by rw [hkind]; rfl) _ _ _ _ _⟩
  · cases h

theorem exists_describes_of_mem_ofTrees {lineOffset : Nat}
    {trees : List SourceTree} {item : ModuleItem}
    (h : item ∈ ofTrees lineOffset [] trees) :
    ∀ record ∈ item.import?, ∃ source, SourceTree.Within trees source ∧
      Describes record lineOffset source := by
  obtain ⟨tree, above, hunder, hown⟩ := mem_ofTrees_iff.1 h
  intro record hrecord
  obtain ⟨source, hsource, hdescribes⟩ :=
    exists_describes_of_own? hown record hrecord
  rw [List.append_nil] at hsource
  exact ⟨source, List.forall_mem_cons.2 ⟨hunder.within, fun _ =>
    hunder.above_within⟩ source hsource, hdescribes⟩

end ModuleItem

end ImportAtlas
