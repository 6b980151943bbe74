import ImportAtlas.Proofs.PrintedScript

/-!
# Plain statements and the rules

The statements of a preamble are read without the table of a dialect.  They
follow its rules all the same: the text of such a statement falls into tokens
of which the productions of every dialect make the tree that the preamble has
for it.
-/

namespace ImportAtlas.Grammar

open Source

/-! ## Readings by productions -/

structure Leaf where
  token : Token
  start : Cursor
  stop : Cursor

def Starts (leaves : List Leaf) (start : Cursor) : Prop :=
  leaves.head?.map Leaf.start = some start

def Stops (leaves : List Leaf) (stop : Cursor) : Prop :=
  leaves.getLast?.map Leaf.stop = some stop

theorem Stops.append (leaves : List Leaf) {others : List Leaf} {stop : Cursor}
    (h : Stops others stop) : Stops (leaves ++ others) stop := by
  obtain ⟨last, hlast, hstop⟩ := Option.map_eq_some_iff.1 h
  rw [Stops, List.getLast?_append, hlast, ← hstop]
  rfl

def insides (dialect : Dialect) (symbol : Symbol) : List (List Step) :=
  (productionsOf dialect symbol).map Production.steps

def Step.kind? (step : Step) : Option Kind :=
  step.role.kind?.or
    (match step.symbol with
    | .part category => category.kind?
    | _ => none)

def Step.labelIn (step : Step) (outer : Label) : Label :=
  if outer = .plain then step.role.label else outer

def Step.leafTree? (step : Step) (outer : Label) (leaf : Leaf) :
    Option SourceTree :=
  step.kind?.map fun kind =>
    .node (step.labelIn outer) kind leaf.start leaf.stop []

/--
The trees that the steps of a production make of some tokens.  A part that is
not shown leaves its place to what it holds, and the label of the part goes
there with it.
-/
inductive Reads (dialect : Dialect) :
    Label → List Step → List Leaf → List SourceTree → Prop
  | nil {outer : Label} : Reads dialect outer [] [] []
  | token {outer : Label} {step : Step} {steps : List Step} {leaf : Leaf}
      {leaves : List Leaf} {trees : List SourceTree}
      (hsymbol : step.symbol = .token leaf.token)
      (hrest : Reads dialect outer steps leaves trees) :
      Reads dialect outer (step :: steps) (leaf :: leaves)
        ((step.leafTree? outer leaf).toList ++ trees)
  | shown {outer : Label} {step : Step} {steps inside : List Step}
      {kind : Kind} {start stop : Cursor} {taken leaves : List Leaf}
      {children trees : List SourceTree}
      (hinside : inside ∈ insides dialect step.symbol)
      (hkind : step.kind? = some kind)
      (htaken : Reads dialect .plain inside taken children)
      (hstart : Starts taken start) (hstop : Stops taken stop)
      (hrest : Reads dialect outer steps leaves trees) :
      Reads dialect outer (step :: steps) (taken ++ leaves)
        (.node (step.labelIn outer) kind start stop children :: trees)
  | hidden {outer : Label} {step : Step} {steps inside : List Step}
      {taken leaves : List Leaf} {children trees : List SourceTree}
      (hinside : inside ∈ insides dialect step.symbol)
      (hkind : step.kind? = none)
      (htaken : Reads dialect (step.labelIn outer) inside taken children)
      (hrest : Reads dialect outer steps leaves trees) :
      Reads dialect outer (step :: steps) (taken ++ leaves) (children ++ trees)

variable {dialect : Dialect} {outer : Label}

theorem Reads.append {first second : List Step} {leaves others : List Leaf}
    {trees more : List SourceTree} (h : Reads dialect outer first leaves trees)
    (hsecond : Reads dialect outer second others more) :
    Reads dialect outer (first ++ second) (leaves ++ others)
      (trees ++ more) := by
  induction h with
  | nil => exact hsecond
  | token hsymbol _ ih =>
      rw [List.append_assoc]
      exact .token hsymbol (ih hsecond)
  | shown hinside hkind htaken hstart hstop _ _ ih =>
      rw [List.append_assoc]
      exact .shown hinside hkind htaken hstart hstop (ih hsecond)
  | hidden hinside hkind htaken _ _ ih =>
      rw [List.append_assoc, List.append_assoc]
      exact .hidden hinside hkind htaken (ih hsecond)

theorem Reads.then {step : Step} {steps : List Step} {leaves others : List Leaf}
    {trees more : List SourceTree} (h : Reads dialect outer [step] leaves trees)
    (hrest : Reads dialect outer steps others more) :
    Reads dialect outer (step :: steps) (leaves ++ others) (trees ++ more) :=
  h.append hrest

theorem Reads.thenToken {step : Step} {leaves : List Leaf} {steps : List Step}
    {leaf : Leaf} {trees : List SourceTree}
    (hsymbol : step.symbol = .token leaf.token) (hkind : step.role.kind? = none)
    (hrest : Reads dialect outer steps leaves trees) :
    Reads dialect outer (step :: steps) (leaf :: leaves) trees := by
  have hnone : step.leafTree? outer leaf = none := by
    simp [Step.leafTree?, Step.kind?, hsymbol, hkind]
  simpa [hnone] using Reads.token hsymbol hrest

theorem Reads.ofHidden {step : Step} (inside : List Step) {taken : List Leaf}
    {children : List SourceTree}
    (hinside : inside ∈ insides dialect step.symbol) (hkind : step.kind? = none)
    (htaken : Reads dialect (step.labelIn outer) inside taken children) :
    Reads dialect outer [step] taken children := by
  simpa using Reads.hidden hinside hkind htaken .nil

def bareStep (label : Label) (symbol : Symbol) : Step :=
  ⟨symbol, ⟨label, none⟩, .none, none⟩

def partStep (label : Label) (category : Category) : Step :=
  bareStep label (.part category)

def wordStep (text : String) : Step :=
  bareStep .plain (.token (.word text))

def markStep (text : String) : Step :=
  bareStep .plain (.token (.mark text))

theorem Reads.part {label : Label} {category : Category} (inside : List Step)
    {kind : Kind} {start stop : Cursor} {taken : List Leaf}
    {children : List SourceTree}
    (hinside : inside ∈ insides dialect (.part category))
    (hkind : category.kind? = some kind)
    (htaken : Reads dialect .plain inside taken children)
    (hstart : Starts taken start) (hstop : Stops taken stop) :
    Reads dialect .plain [partStep label category] taken
      [.node label kind start stop children] := by
  have hstep : (partStep label category).kind? = some kind := hkind
  rw [← List.append_nil taken]
  exact .shown hinside hstep htaken hstart hstop .nil

def nameStep (label : Label) : Step :=
  ⟨.token (.shape .identifier), ⟨label, some .identifier⟩, .none, none⟩

private theorem reads_mark (text : String) (start stop : Cursor) :
    Reads dialect outer [markStep text] [⟨.mark text, start, stop⟩] [] :=
  .thenToken rfl rfl .nil

/-! ## Rows -/

def rowStep (body : Rule) : Step :=
  bareStep .plain (.row body)

def RowSoFar (dialect : Dialect) (body : Rule) (leaves : List Leaf)
    (trees : List SourceTree) : Prop :=
  leaves = [] ∧ trees = [] ∨ Reads dialect .plain [rowStep body] leaves trees

/-- A row grows at its end, by one body at a time. -/
theorem RowSoFar.grow {body : Rule} {leaves others : List Leaf}
    {trees more : List SourceTree} (h : RowSoFar dialect body leaves trees)
    (production : Production) (hproduction : production ∈ body.productions)
    (hbody : Reads dialect .plain production.steps others more) :
    Reads dialect .plain [rowStep body] (leaves ++ others) (trees ++ more) := by
  rcases h with ⟨rfl, rfl⟩ | hrow
  · have hinside : production.steps ∈ insides dialect (.row body) := by
      simp only [insides, productionsOf, Rule.rowProductions, List.map_append,
        List.mem_append]
      exact .inl (List.mem_map_of_mem hproduction)
    exact .ofHidden _ hinside rfl hbody
  · have hinside :
        rowStep body :: production.steps ∈ insides dialect (.row body) := by
      simp only [insides, productionsOf, Rule.rowProductions, List.map_append,
        List.mem_append, List.map_map]
      exact .inr (List.mem_map.2 ⟨production, hproduction, rfl⟩)
    exact .ofHidden _ hinside rfl (hrow.then hbody)

/-! ## Tokens of a text -/

/-- The characters that may stand before a token; the text of a string follows
its quote at once. -/
def Token.skips : Token → Char → Bool
  | .shape .doubleQuotedText, _ => false
  | .shape .singleQuotedText, _ => false
  | _, c => isBlank c

/-- The number of characters that a token of a plain statement has at the head
of a text. -/
def Token.lengthAt : Token → List Char → Nat
  | .word fixed, text =>
    if text.take (wordLength text) = fixed.toList then wordLength text else 0
  | .mark fixed, text =>
    if fixed.toList.isPrefixOf text then fixed.length else 0
  | .shape .identifier, text => wordLength text
  | .shape .doubleQuotedText, text => quotedTextLength '"' text
  | .shape .singleQuotedText, text => quotedTextLength '\'' text
  | .shape _, _ => 0

inductive Spelt : Cursor → List Leaf → Cursor → Prop
  | nil {place : Cursor} : Spelt place [] place
  | cons {place last : Cursor} {leaf : Leaf} {leaves : List Leaf} (count : Nat)
      (hgap : (place.rest.take count).all leaf.token.skips = true)
      (hstart : leaf.start = place.advance count)
      (hlength : 0 < leaf.token.lengthAt leaf.start.rest)
      (hstop : leaf.stop =
        leaf.start.advance (leaf.token.lengthAt leaf.start.rest))
      (hrest : Spelt leaf.stop leaves last) :
      Spelt place (leaf :: leaves) last

theorem Spelt.append {place middle last : Cursor} {leaves others : List Leaf}
    (h : Spelt place leaves middle) (hothers : Spelt middle others last) :
    Spelt place (leaves ++ others) last := by
  induction h with
  | nil => exact hothers
  | cons count hgap hstart hlength hstop _ ih =>
      exact .cons count hgap hstart hlength hstop (ih hothers)

theorem Spelt.joined {start stop last : Cursor} {token : Token}
    {leaves : List Leaf} {length : Nat}
    (hlength : token.lengthAt start.rest = length) (hpos : 0 < length)
    (hstop : stop = start.advance length) (hrest : Spelt stop leaves last) :
    Spelt start (⟨token, start, stop⟩ :: leaves) last :=
  .cons 0 (by simp) rfl (by rwa [hlength]) (by rw [hlength, hstop]) hrest

private theorem Spelt.last_eq {place last stop : Cursor} {leaves : List Leaf}
    (h : Spelt place leaves last) (hstop : Stops leaves stop) :
    last = stop := by
  induction h with
  | nil => cases hstop
  | @cons _ _ leaf leaves _ _ _ _ _ hrest ih =>
      cases leaves with
      | nil =>
          cases hrest
          exact Option.some.inj hstop
      | cons second leaves => exact ih (by simpa [Stops] using hstop)

namespace Piece

def leaf (piece : Piece) (token : Token) : Leaf :=
  ⟨token, piece.start, piece.stop⟩

def quotedLeaves (quote : Char) (text : Shape) (piece : Piece) : List Leaf :=
  let inside := quotedTextLength quote piece.start.next.rest
  let closing := piece.start.next.advance inside
  let mark := Token.mark (String.singleton quote)
  ⟨mark, piece.start, piece.start.next⟩ ::
    if inside = 0 then [⟨mark, closing, piece.stop⟩]
    else [⟨.shape text, piece.start.next, closing⟩, ⟨mark, closing, piece.stop⟩]

def leaves (piece : Piece) : List Leaf :=
  match piece.kind with
  | .importWord => [piece.leaf (.word "import")]
  | .exportWord => [piece.leaf (.word "export")]
  | .fromWord => [piece.leaf (.word "from")]
  | .asWord => [piece.leaf (.word "as")]
  | .name => [piece.leaf (.shape .identifier)]
  | .star => [piece.leaf (.mark "*")]
  | .comma => [piece.leaf (.mark ",")]
  | .opening => [piece.leaf (.mark "\x7b")]
  | .closing => [piece.leaf (.mark "\x7d")]
  | .ending => [piece.leaf (.mark ";")]
  | .quoted =>
    if piece.start.rest.head? = some '"' then
      piece.quotedLeaves '"' .doubleQuotedText
    else piece.quotedLeaves '\'' .singleQuotedText

section Texts

variable {place : Cursor} {count length : Nat}

private theorem spelt_leaf {kind : PieceKind} {token : Token}
    (hgap : (place.rest.take count).all token.skips = true)
    (hlength : token.lengthAt (place.advance count).rest = length)
    (hpos : 0 < length) :
    let start := place.advance count
    let piece : Piece := ⟨kind, start, start.advance length⟩
    Spelt place [piece.leaf token] piece.stop := by
  refine .cons count hgap rfl ?_ ?_ .nil
  · rw [leaf, hlength]
    exact hpos
  · rw [leaf, hlength]

private theorem skips_of_space {token : Token} (hskips : token.skips ' ' = true)
    {text : List Char} (h : text.all (· == ' ') = true) :
    text.all token.skips = true := by
  rw [List.all_eq_true] at h ⊢
  intro c hc
  have hspace : c = ' ' := by simpa using h c hc
  rw [hspace, hskips]

private theorem lengthAt_singleton {quote : Char} {text : List Char}
    (h : text.head? = some quote) :
    (Token.mark (String.singleton quote)).lengthAt text = 1 := by
  cases text with
  | nil => cases h
  | cons c rest =>
      cases h
      simp [Token.lengthAt]

private theorem spelt_quoted {quote : Char} {text : Shape}
    (htext : ∀ letters, (Token.shape text).lengthAt letters =
      quotedTextLength quote letters)
    (hgap : (place.rest.take count).all (· == ' ') = true) {rest : List Char}
    (hrest : (place.advance count).rest = quote :: rest)
    (hclosed : (rest.drop (quotedTextLength quote rest)).head? = some quote) :
    let start := place.advance count
    let stop := start.advance (quotedTextLength quote rest + 2)
    Spelt place (quotedLeaves quote text ⟨.quoted, start, stop⟩) stop := by
  intro start stop
  have hnext : start.next.rest = rest := by
    have hadvance := Cursor.rest_advance start 1
    rwa [hrest] at hadvance
  have hopen : (Token.mark (String.singleton quote)).lengthAt start.rest = 1 :=
    lengthAt_singleton (by rw [hrest]; rfl)
  have hclose : (Token.mark (String.singleton quote)).lengthAt
      (start.next.advance (quotedTextLength quote rest)).rest = 1 :=
    lengthAt_singleton (by rw [Cursor.rest_advance, hnext, hclosed])
  have hstop : stop =
      (start.next.advance (quotedTextLength quote rest)).advance 1 :=
    Cursor.advance_add start.next _ 1
  unfold quotedLeaves
  dsimp only
  rw [hnext]
  refine .cons count (skips_of_space rfl hgap) rfl (by rw [hopen]; decide)
    (by rw [hopen]; rfl) ?_
  split
  · next hnone =>
    rw [hnone] at hclose hstop ⊢
    exact .joined hclose Nat.one_pos hstop .nil
  · next hsome =>
    have hinside := htext start.next.rest
    rw [hnext] at hinside
    exact .joined (by rw [hnext, hinside]) (Nat.pos_of_ne_zero hsome) rfl
      (.joined hclose Nat.one_pos hstop .nil)

private theorem spelt_word {kind : PieceKind} {text : List Char}
    (hgap : (place.rest.take count).all (· == ' ') = true)
    (htext : (place.advance count).rest = text)
    (hkind : kindOfWord? (text.take (wordLength text)) = some kind)
    (hpos : 0 < wordLength text) :
    let start := place.advance count
    let piece : Piece := ⟨kind, start, start.advance (wordLength text)⟩
    Spelt place piece.leaves piece.stop := by
  have hfixed {found : PieceKind} {letters : String}
      (h : text.take (wordLength text) = letters.toList) :
      let start := place.advance count
      let piece : Piece := ⟨found, start, start.advance (wordLength text)⟩
      Spelt place [piece.leaf (.word letters)] piece.stop := by
    refine spelt_leaf (skips_of_space rfl hgap) ?_ hpos
    rw [htext, Token.lengthAt, if_pos h]
  unfold kindOfWord? at hkind
  split at hkind
  · next hword =>
    cases hkind
    exact hfixed hword
  split at hkind
  · next hword =>
    cases hkind
    exact hfixed hword
  split at hkind
  · next hword =>
    cases hkind
    exact hfixed hword
  split at hkind
  · next hword =>
    cases hkind
    exact hfixed hword
  split at hkind
  · cases hkind
  split at hkind
  · cases hkind
    exact spelt_leaf (skips_of_space rfl hgap) (by rw [htext]; rfl) hpos
  · cases hkind

private theorem spelt_look? {kind : PieceKind}
    (hgap : (place.rest.take count).all (· == ' ') = true)
    (h : look? (place.advance count).rest = some (kind, length)) :
    let start := place.advance count
    let piece : Piece := ⟨kind, start, start.advance length⟩
    Spelt place piece.leaves piece.stop := by
  intro start piece
  unfold look? at h
  split at h
  · cases h
  · next c rest hrest =>
    split at h
    · next hquote =>
      dsimp only at h
      split at h
      · next hclosed =>
        cases h
        have hclosed := eq_of_beq hclosed
        simp only [Bool.or_eq_true, beq_iff_eq] at hquote
        rcases hquote with rfl | rfl
        · rw [leaves, if_pos (by rw [hrest]; rfl)]
          exact spelt_quoted (fun _ => rfl) hgap hrest hclosed
        · rw [leaves, if_neg (by rw [hrest]; simp)]
          exact spelt_quoted (fun _ => rfl) hgap hrest hclosed
      · cases h
    · split at h
      · next mark hmark =>
        cases h
        unfold kindOfMark? at hmark
        split at hmark <;> cases hmark <;>
          exact spelt_leaf (skips_of_space rfl hgap) (by rw [hrest]; rfl)
            Nat.one_pos
      · dsimp only at h
        split at h
        · cases h
        · next hlength =>
          obtain ⟨word, hword, hfound⟩ := Option.map_eq_some_iff.1 h
          cases hfound
          exact spelt_word hgap rfl hword (Nat.pos_of_ne_zero hlength)

private theorem all_take_countWhile (holds : Char → Bool) (text : List Char) :
    (text.take (countWhile holds text)).all holds = true := by
  induction text with
  | nil => rfl
  | cons c rest ih =>
      rw [countWhile, countWhileFrom]
      split
      · next hc =>
        rw [countWhileFrom_eq, Nat.zero_add, Nat.add_comm, List.take_succ_cons]
        simp [hc, ih]
      · rfl

private theorem spelt_readWithin? (budget : List Char) {pieces : List Piece}
    (h : readWithin? budget place = some pieces) :
    ∃ last, Spelt place (pieces.flatMap leaves) last := by
  induction budget generalizing place pieces with
  | nil => cases h
  | cons _ budget ih =>
      rw [readWithin?] at h
      dsimp only at h
      split at h
      · cases h
      · next kind length hlook =>
        have hpiece := spelt_look? (all_take_countWhile _ place.rest) hlook
        split at h
        · cases h
          exact ⟨_, by simpa using hpiece⟩
        · obtain ⟨later, hlater, rfl⟩ := Option.map_eq_some_iff.1 h
          obtain ⟨last, hlast⟩ := ih hlater
          exact ⟨last, hpiece.append hlast⟩

end Texts

end Piece

open Piece (nameTree keptTree renamedTree namesOf? severalOf? sourceOf?
  fromSourceOf? importClauseOf? importOf? exportOf? statementOf?)

/-! ## Names -/

def nameLeaf (start stop : Cursor) : Leaf :=
  ⟨.shape .identifier, start, stop⟩

private theorem labelIn_nameStep (label : Label) :
    (nameStep .plain).labelIn label = label := by
  cases label <;> rfl

private theorem reads_name (label : Label) (start stop : Cursor) :
    Reads dialect .plain [nameStep label] [nameLeaf start stop]
      [nameTree label start stop] :=
  .token rfl .nil

private theorem reads_hiddenName {category : Category}
    (hinside : [nameStep .plain] ∈ insides dialect (.part category))
    (hkind : category.kind? = none) (label : Label) (start stop : Cursor) :
    Reads dialect .plain [partStep label category] [nameLeaf start stop]
      [nameTree label start stop] := by
  refine .ofHidden _ hinside hkind ?_
  have hname : Reads dialect label [nameStep .plain] [nameLeaf start stop]
      [nameTree ((nameStep .plain).labelIn label) start stop] :=
    .token rfl .nil
  rwa [labelIn_nameStep] at hname

private theorem reads_exportName (label : Label) (start stop : Cursor) :
    Reads dialect .plain [partStep label .exportName] [nameLeaf start stop]
      [nameTree label start stop] :=
  reads_hiddenName (by cases dialect <;> decide +kernel) rfl label start stop

def importedStep (dialect : Dialect) (label : Label) : Step :=
  if dialect.isTyped then partStep label .importName else nameStep label

private theorem reads_imported (label : Label) (start stop : Cursor) :
    Reads dialect .plain [importedStep dialect label] [nameLeaf start stop]
      [nameTree label start stop] := by
  cases dialect with
  | javaScript => exact reads_name label start stop
  | typeScript =>
    exact reads_hiddenName (by decide +kernel) rfl label start stop
  | tsx => exact reads_hiddenName (by decide +kernel) rfl label start stop

structure ReadsEntry (dialect : Dialect) (entry : Category) : Prop where
  kept : ∀ start stop, Reads dialect .plain [partStep .plain entry]
    [nameLeaf start stop] [keptTree start stop]
  renamed : ∀ start stop wordStart wordStop newStart newStop,
    Reads dialect .plain [partStep .plain entry]
      [nameLeaf start stop, ⟨.word "as", wordStart, wordStop⟩,
        nameLeaf newStart newStop]
      [renamedTree start stop newStart newStop]

private theorem readsEntry_of_insides {entry : Category}
    {kept renamed new : Step} (hkind : entry.kind? = some .other)
    (hkept : [kept] ∈ insides dialect (.part entry))
    (hrenamed : [renamed, wordStep "as", new] ∈ insides dialect (.part entry))
    (hkeptName : ∀ start stop, Reads dialect .plain [kept]
      [nameLeaf start stop] [nameTree .name start stop])
    (hname : ∀ start stop, Reads dialect .plain [renamed]
      [nameLeaf start stop] [nameTree .name start stop])
    (hnewName : ∀ start stop, Reads dialect .plain [new]
      [nameLeaf start stop] [nameTree .newName start stop]) :
    ReadsEntry dialect entry where
  kept := fun start stop =>
    .part _ hkept hkind (hkeptName start stop) rfl rfl
  renamed := fun start stop _ _ newStart newStop =>
    .part _ hrenamed hkind
      ((hname start stop).then
        (.thenToken rfl rfl (hnewName newStart newStop))) rfl rfl

private theorem readsEntry_export : ReadsEntry dialect .exportSpecifier :=
  readsEntry_of_insides rfl (by cases dialect <;> decide +kernel)
    (by cases dialect <;> decide +kernel) (reads_exportName .name)
    (reads_exportName .name) (reads_exportName .newName)

private theorem readsEntry_import : ReadsEntry dialect .importSpecifier :=
  readsEntry_of_insides rfl (by cases dialect <;> decide +kernel)
    (by cases dialect <;> decide +kernel) (reads_imported .name)
    (reads_exportName .name) (reads_imported .newName)

/-! ## Lists of names -/

inductive Entries (dialect : Dialect) (entry : Category) :
    List Leaf → List SourceTree → Prop
  | one {leaves : List Leaf} {tree : SourceTree}
      (hentry : Reads dialect .plain [partStep .plain entry] leaves [tree]) :
      Entries dialect entry leaves [tree]
  | more {leaves others : List Leaf} {tree : SourceTree}
      {trees : List SourceTree} (start stop : Cursor)
      (hentry : Reads dialect .plain [partStep .plain entry] leaves [tree])
      (hothers : Entries dialect entry others trees) :
      Entries dialect entry (leaves ++ ⟨.mark ",", start, stop⟩ :: others)
        (tree :: trees)

def nextEntry (entry : Category) : Rule :=
  .both (Rule.mark ",") (.part entry)

private theorem RowSoFar.growEntry {entry : Category}
    {leaves others : List Leaf} {trees : List SourceTree} {tree : SourceTree}
    (h : RowSoFar dialect (nextEntry entry) leaves trees) (start stop : Cursor)
    (hentry : Reads dialect .plain [partStep .plain entry] others [tree]) :
    Reads dialect .plain [rowStep (nextEntry entry)]
      (leaves ++ ⟨.mark ",", start, stop⟩ :: others) (trees ++ [tree]) :=
  h.grow ⟨[markStep ",", partStep .plain entry], 0⟩ (List.mem_singleton_self _)
    (.thenToken rfl rfl hentry)

private theorem Entries.reads_row {entry : Category} {others : List Leaf}
    {more : List SourceTree} (h : Entries dialect entry others more)
    {leaves : List Leaf} {trees : List SourceTree}
    (hrow : RowSoFar dialect (nextEntry entry) leaves trees)
    (start stop : Cursor) :
    Reads dialect .plain [rowStep (nextEntry entry)]
      (leaves ++ ⟨.mark ",", start, stop⟩ :: others) (trees ++ more) := by
  induction h generalizing leaves trees start stop with
  | one hentry => exact hrow.growEntry start stop hentry
  | more _ _ hentry _ ih =>
      have hlonger := hrow.growEntry start stop hentry
      simpa using ih (.inr hlonger) _ _

private theorem Entries.reads {entry : Category} {leaves : List Leaf}
    {trees : List SourceTree} (h : Entries dialect entry leaves trees) :
    Reads dialect .plain [partStep .plain entry] leaves trees ∨
      Reads dialect .plain [partStep .plain entry, rowStep (nextEntry entry)]
        leaves trees := by
  cases h with
  | one hentry => exact .inl hentry
  | more _ _ hentry hothers =>
      exact .inr (hentry.then (hothers.reads_row (.inl ⟨rfl, rfl⟩) _ _))

variable {pieces rest : List Piece}

private theorem entries_of_namesOf? {entry : Category}
    (hentry : ReadsEntry dialect entry) {names : List SourceTree}
    {stop : Cursor} (h : namesOf? pieces = some (names, stop, rest)) :
    ∃ taken start, pieces.flatMap Piece.leaves =
        taken ++ ⟨.mark "\x7d", start, stop⟩ :: rest.flatMap Piece.leaves ∧
      Entries dialect entry taken names := by
  fun_induction namesOf? pieces generalizing names with
  | case1 start stop last =>
      cases h
      exact ⟨_, last, rfl, .one (hentry.kept start stop)⟩
  | case2 start stop commaStart commaStop pieces ih =>
      obtain ⟨⟨later, _, _⟩, hlater, hnames⟩ := Option.map_eq_some_iff.1 h
      cases hnames
      obtain ⟨taken, closing, htaken, hentries⟩ := ih hlater
      refine ⟨_, closing, ?_,
        .more commaStart commaStop (hentry.kept start stop) hentries⟩
      simp [Piece.leaves, Piece.leaf, nameLeaf, htaken]
  | case3 start stop wordStart wordStop newStart newStop last =>
      cases h
      exact ⟨_, last, rfl,
        .one (hentry.renamed start stop wordStart wordStop newStart newStop)⟩
  | case4 start stop wordStart wordStop newStart newStop commaStart commaStop
      pieces ih =>
      obtain ⟨⟨later, _, _⟩, hlater, hnames⟩ := Option.map_eq_some_iff.1 h
      cases hnames
      obtain ⟨taken, closing, htaken, hentries⟩ := ih hlater
      refine ⟨_, closing, ?_, .more commaStart commaStop
        (hentry.renamed start stop wordStart wordStop newStart newStop)
        hentries⟩
      simp [Piece.leaves, Piece.leaf, nameLeaf, htaken]
  | case5 => cases h

/-! ## Sources -/

private theorem reads_quotedLeaves {quote : Char} {text : Shape}
    (hempty : [markStep (String.singleton quote),
      markStep (String.singleton quote)] ∈ insides dialect (.part .string))
    (hfull : [markStep (String.singleton quote),
      rowStep (Rule.choice [Rule.shape text, Rule.shape .escape]),
      markStep (String.singleton quote)] ∈ insides dialect (.part .string))
    (piece : Piece) :
    Reads dialect .plain [partStep .source .string]
      (piece.quotedLeaves quote text)
      [.node .source .string piece.start piece.stop []] := by
  unfold Piece.quotedLeaves
  dsimp only
  split
  · exact .part _ hempty rfl (.thenToken rfl rfl (.thenToken rfl rfl .nil))
      rfl rfl
  · have hrow : Reads dialect .plain
        [rowStep (Rule.choice [Rule.shape text, Rule.shape .escape])]
        [⟨.shape text, piece.start.next, piece.start.next.advance
          (quotedTextLength quote piece.start.next.rest)⟩] [] :=
      RowSoFar.grow (.inl ⟨rfl, rfl⟩)
        ⟨[bareStep .plain (.token (.shape text))], 0⟩ (List.mem_cons_self ..)
        (.thenToken rfl rfl .nil)
    exact .part _ hfull rfl
      (.thenToken rfl rfl (hrow.then (.thenToken rfl rfl .nil))) rfl rfl

private theorem reads_quoted (start stop : Cursor) :
    Reads dialect .plain [partStep .source .string]
      (Piece.leaves ⟨.quoted, start, stop⟩)
      [.node .source .string start stop []] := by
  unfold Piece.leaves
  dsimp only
  split
  · exact reads_quotedLeaves (by cases dialect <;> decide +kernel)
      (by cases dialect <;> decide +kernel) _
  · exact reads_quotedLeaves (by cases dialect <;> decide +kernel)
      (by cases dialect <;> decide +kernel) _

def ReadsToEnd (dialect : Dialect) (step : Step) (pieces : List Piece)
    (trees : List SourceTree) (stop : Cursor) : Prop :=
  ∃ taken start,
    pieces.flatMap Piece.leaves = taken ++ [⟨.mark ";", start, stop⟩] ∧
    Reads dialect .plain [step] taken trees

private theorem reads_sourceOf? (dialect : Dialect) {source : SourceTree}
    {stop : Cursor}
    (h : sourceOf? pieces = some (source, stop)) :
    ReadsToEnd dialect (partStep .source .string) pieces [source] stop := by
  unfold sourceOf? at h
  split at h
  · next start quotedStop last _ =>
    cases h
    exact ⟨_, last, rfl, reads_quoted start quotedStop⟩
  · cases h

private theorem reads_fromSourceOf? (dialect : Dialect) {source : SourceTree}
    {stop : Cursor}
    (h : fromSourceOf? pieces = some (source, stop)) :
    ReadsToEnd dialect (partStep .plain .fromClause) pieces [source] stop := by
  unfold fromSourceOf? at h
  split at h
  · next start wordStop pieces =>
    obtain ⟨taken, last, htaken, hread⟩ := reads_sourceOf? dialect h
    refine ⟨⟨.word "from", start, wordStop⟩ :: taken, last, ?_, ?_⟩
    · rw [List.flatMap_cons, htaken]
      rfl
    · exact .ofHidden [wordStep "from", partStep .source .string]
        (by cases dialect <;> decide +kernel) rfl (.thenToken rfl rfl hread)
  · cases h

/-! ## Clauses -/

structure ReadsPart (dialect : Dialect) (category : Category)
    (taken : List Leaf) (tree : SourceTree) : Prop where
  start : Starts taken tree.start
  stop : Stops taken tree.stop
  reads : Reads dialect .plain [partStep .plain category] taken [tree]

private theorem readsPart {category : Category} {inside : List Step}
    {kind : Kind} {start stop : Cursor} {taken : List Leaf}
    {children : List SourceTree}
    (hinside : inside ∈ insides dialect (.part category))
    (hkind : category.kind? = some kind)
    (htaken : Reads dialect .plain inside taken children)
    (hstart : Starts taken start) (hstop : Stops taken stop) :
    ReadsPart dialect category taken (.node .plain kind start stop children) :=
  ⟨hstart, hstop, .part inside hinside hkind htaken hstart hstop⟩

structure ReadsSeveral (dialect : Dialect) (name : Step)
    (whole list entry : Category) : Prop where
  readsName : ∀ start stop, Reads dialect .plain [name] [nameLeaf start stop]
    [nameTree .plain start stop]
  readsEntry : ReadsEntry dialect entry
  insideWhole :
    [markStep "*", wordStep "as", name] ∈ insides dialect (.part whole)
  insideOne : [markStep "\x7b", partStep .plain entry, markStep "\x7d"] ∈
    insides dialect (.part list)
  insideMore :
    [markStep "\x7b", partStep .plain entry, rowStep (nextEntry entry),
      markStep "\x7d"] ∈ insides dialect (.part list)

theorem readsSeveral_import (dialect : Dialect) :
    ReadsSeveral dialect (nameStep .plain)
      .namespaceImport .namedImports .importSpecifier where
  readsName := reads_name .plain
  readsEntry := readsEntry_import
  insideWhole := by cases dialect <;> decide +kernel
  insideOne := by cases dialect <;> decide +kernel
  insideMore := by cases dialect <;> decide +kernel

theorem readsSeveral_export (dialect : Dialect) :
    ReadsSeveral dialect (partStep .plain .exportName)
      .namespaceExport .exportClause .exportSpecifier where
  readsName := reads_exportName .plain
  readsEntry := readsEntry_export
  insideWhole := by cases dialect <;> decide +kernel
  insideOne := by cases dialect <;> decide +kernel
  insideMore := by cases dialect <;> decide +kernel

private theorem readsPart_severalOf? {name : Step} {whole list entry : Category}
    (hseveral : ReadsSeveral dialect name whole list entry)
    {wholeKind listKind : Kind} (hwhole : whole.kind? = some wholeKind)
    (hlist : list.kind? = some listKind) {several : SourceTree}
    (h : severalOf? wholeKind listKind pieces = some (several, rest)) :
    ∃ category ∈ [whole, list], category.kind? = some several.kind ∧
      ∃ taken,
        pieces.flatMap Piece.leaves = taken ++ rest.flatMap Piece.leaves ∧
        ReadsPart dialect category taken several := by
  unfold severalOf? at h
  split at h
  · next start starStop wordStart wordStop nameStart stop pieces =>
    cases h
    refine ⟨whole, by simp, hwhole, [⟨.mark "*", start, starStop⟩,
      ⟨.word "as", wordStart, wordStop⟩, nameLeaf nameStart stop], rfl, ?_⟩
    exact readsPart hseveral.insideWhole hwhole
      (.thenToken rfl rfl
        (.thenToken rfl rfl (hseveral.readsName nameStart stop))) rfl rfl
  · next start openingStop pieces =>
    obtain ⟨⟨names, stop, rest⟩, hnames, hfound⟩ := Option.map_eq_some_iff.1 h
    cases hfound
    obtain ⟨taken, closing, htaken, hentries⟩ :=
      entries_of_namesOf? hseveral.readsEntry hnames
    refine ⟨list, by simp, hlist, ⟨.mark "\x7b", start, openingStop⟩ ::
      (taken ++ [⟨.mark "\x7d", closing, stop⟩]), by
        simp [Piece.leaves, Piece.leaf, htaken], ?_⟩
    have hstop : Stops (⟨.mark "\x7b", start, openingStop⟩ ::
        (taken ++ [⟨.mark "\x7d", closing, stop⟩])) stop :=
      Stops.append (_ :: taken) rfl
    rcases hentries.reads with hone | hmore
    · have hinside := hone.then (reads_mark "\x7d" closing stop)
      rw [List.append_nil] at hinside
      exact readsPart hseveral.insideOne hlist (.thenToken rfl rfl hinside)
        rfl hstop
    · have hinside := hmore.append (reads_mark "\x7d" closing stop)
      rw [List.append_nil] at hinside
      exact readsPart hseveral.insideMore hlist (.thenToken rfl rfl hinside)
        rfl hstop
  · cases h

private theorem readsPart_importClauseOf? (dialect : Dialect)
    {clause : SourceTree} (h : importClauseOf? pieces = some (clause, rest)) :
    ∃ taken, pieces.flatMap Piece.leaves = taken ++ rest.flatMap Piece.leaves ∧
      ReadsPart dialect .importClause taken clause := by
  unfold importClauseOf? at h
  split at h
  · next start stop commaStart commaStop pieces =>
    obtain ⟨⟨several, rest⟩, hseveral, hfound⟩ := Option.map_eq_some_iff.1 h
    cases hfound
    obtain ⟨category, hcategory, -, taken, htaken, hpart⟩ :=
      readsPart_severalOf? (readsSeveral_import dialect) rfl rfl hseveral
    have hinside : ∀ category ∈ [Category.namespaceImport, .namedImports],
        [importedStep dialect .plain, markStep ",", partStep .plain category] ∈
          insides dialect (.part .importClause) := by
      cases dialect <;> decide +kernel
    refine ⟨nameLeaf start stop :: ⟨.mark ",", commaStart, commaStop⟩ :: taken,
      ?_, ?_⟩
    · simp [Piece.leaves, Piece.leaf, nameLeaf, htaken]
    · exact readsPart (hinside category hcategory) rfl
        ((reads_imported .plain start stop).then
          (.thenToken rfl rfl hpart.reads))
        rfl (hpart.stop.append [_, _])
  · next start stop pieces _ =>
    cases h
    have hinside : [importedStep dialect .plain] ∈
        insides dialect (.part .importClause) := by
      cases dialect <;> decide +kernel
    exact ⟨[nameLeaf start stop], rfl,
      readsPart hinside rfl (reads_imported .plain start stop) rfl rfl⟩
  · obtain ⟨⟨several, rest⟩, hseveral, hfound⟩ := Option.map_eq_some_iff.1 h
    cases hfound
    obtain ⟨category, hcategory, -, taken, htaken, hpart⟩ :=
      readsPart_severalOf? (readsSeveral_import dialect) rfl rfl hseveral
    have hinside : ∀ category ∈ [Category.namespaceImport, .namedImports],
        [partStep .plain category] ∈ insides dialect (.part .importClause) := by
      cases dialect <;> decide +kernel
    exact ⟨taken, htaken, readsPart (hinside category hcategory) rfl hpart.reads
      hpart.start hpart.stop⟩

/-! ## Statements -/

private theorem readsPart_importOf? (dialect : Dialect) {start : Cursor}
    (wordStop : Cursor) {statement : SourceTree}
    (h : importOf? start pieces = some statement) :
    ReadsPart dialect .importStatement
      (⟨.word "import", start, wordStop⟩ :: pieces.flatMap Piece.leaves)
      statement := by
  unfold importOf? at h
  split at h
  · next source stop hsource =>
    cases h
    obtain ⟨taken, last, htaken, hread⟩ := reads_sourceOf? dialect hsource
    have hinside : [wordStep "import", partStep .source .string, markStep ";"] ∈
        insides dialect (.part .importStatement) := by
      cases dialect <;> decide +kernel
    rw [htaken]
    exact readsPart hinside rfl
      (.thenToken rfl rfl (hread.then (reads_mark ";" last stop))) rfl
      (Stops.append (_ :: taken) rfl)
  · split at h
    · cases h
    · next clause rest hclause =>
      obtain ⟨⟨source, stop⟩, hsource, rfl⟩ := Option.map_eq_some_iff.1 h
      obtain ⟨front, hfront, hpart⟩ := readsPart_importClauseOf? dialect hclause
      obtain ⟨back, last, hback, hread⟩ := reads_fromSourceOf? dialect hsource
      have hinside : [wordStep "import", partStep .plain .importClause,
          partStep .plain .fromClause, markStep ";"] ∈
          insides dialect (.part .importStatement) := by
        cases dialect <;> decide +kernel
      rw [hfront, hback]
      exact readsPart hinside rfl (.thenToken rfl rfl
        (hpart.reads.then (hread.then (reads_mark ";" last stop)))) rfl
        (Stops.append (_ :: front) (Stops.append back rfl))

private theorem readsPart_exportOf? (dialect : Dialect) {start : Cursor}
    (wordStop : Cursor) {statement : SourceTree}
    (h : exportOf? start pieces = some statement) :
    ReadsPart dialect .exportStatement
      (⟨.word "export", start, wordStop⟩ :: pieces.flatMap Piece.leaves)
      statement := by
  unfold exportOf? at h
  split at h
  · next several last stop hseveral =>
    split at h
    · next hkind =>
      cases h
      obtain ⟨category, hcategory, hsame, taken, htaken, hpart⟩ :=
        readsPart_severalOf? (readsSeveral_export dialect) rfl rfl hseveral
      have hinside : ∀ category ∈ [Category.namespaceExport, .exportClause],
          category.kind? = some .exportClause →
          [wordStep "export", partStep .plain category, markStep ";"] ∈
            insides dialect (.part .exportStatement) := by
        cases dialect <;> decide +kernel
      rw [hkind] at hsame
      rw [htaken]
      exact readsPart (hinside category hcategory hsame) rfl
        (.thenToken rfl rfl (hpart.reads.then (reads_mark ";" last stop))) rfl
        (Stops.append (_ :: taken) rfl)
    · cases h
  · next several rest _ hseveral =>
    obtain ⟨⟨source, stop⟩, hsource, rfl⟩ := Option.map_eq_some_iff.1 h
    obtain ⟨category, hcategory, -, front, hfront, hpart⟩ :=
      readsPart_severalOf? (readsSeveral_export dialect) rfl rfl hseveral
    obtain ⟨back, last, hback, hread⟩ := reads_fromSourceOf? dialect hsource
    have hinside : ∀ category ∈ [Category.namespaceExport, .exportClause],
        [wordStep "export", partStep .plain category,
          partStep .plain .fromClause, markStep ";"] ∈ insides dialect
            (.part .exportStatement) := by
      cases dialect <;> decide +kernel
    rw [hfront, hback]
    exact readsPart (hinside category hcategory) rfl (.thenToken rfl rfl
      (hpart.reads.then (hread.then (reads_mark ";" last stop)))) rfl
      (Stops.append (_ :: front) (Stops.append back rfl))
  · split at h
    · next starStart starStop rest =>
      obtain ⟨⟨source, stop⟩, hsource, rfl⟩ := Option.map_eq_some_iff.1 h
      obtain ⟨taken, last, htaken, hread⟩ := reads_fromSourceOf? dialect hsource
      have hinside :
          [wordStep "export", markStep "*", partStep .plain .fromClause,
            markStep ";"] ∈ insides dialect (.part .exportStatement) := by
        cases dialect <;> decide +kernel
      rw [List.flatMap_cons, htaken]
      exact readsPart hinside rfl (.thenToken rfl rfl (.thenToken rfl rfl
        (hread.then (reads_mark ";" last stop)))) rfl
        (Stops.append (_ :: _ :: taken) rfl)
    · cases h

private theorem reads_statementOf? (dialect : Dialect) {statement : SourceTree}
    (h : statementOf? pieces = some statement) :
    Stops (pieces.flatMap Piece.leaves) statement.stop ∧
      Reads dialect .plain [partStep .plain .statement]
        (pieces.flatMap Piece.leaves) [statement] := by
  unfold statementOf? at h
  split at h
  · next wordStop pieces =>
    have hpart := readsPart_importOf? dialect wordStop h
    exact ⟨hpart.stop, .ofHidden [partStep .plain .importStatement]
      (by cases dialect <;> decide +kernel) rfl hpart.reads⟩
  · next wordStop pieces =>
    have hpart := readsPart_exportOf? dialect wordStop h
    exact ⟨hpart.stop, .ofHidden [partStep .plain .exportStatement]
      (by cases dialect <;> decide +kernel) rfl hpart.reads⟩
  · cases h

private theorem spelt_and_reads_readPlain? (dialect : Dialect) {place : Cursor}
    {statement : SourceTree} (h : readPlain? place = some statement) :
    ∃ leaves, Spelt place leaves statement.stop ∧
      Reads dialect .plain [partStep .plain .statement] leaves [statement] := by
  obtain ⟨pieces, hpieces, hstatement⟩ := Option.bind_eq_some_iff.1 h
  obtain ⟨last, hspelt⟩ := Piece.spelt_readWithin? place.rest hpieces
  obtain ⟨hstop, hreads⟩ := reads_statementOf? dialect hstatement
  rw [hspelt.last_eq hstop] at hspelt
  exact ⟨pieces.flatMap Piece.leaves, hspelt, hreads⟩

/-! ## Whole preambles -/

inductive PlainRun (dialect : Dialect) :
    Cursor → List Leaf → List SourceTree → Cursor → Prop
  | nil {place : Cursor} : PlainRun dialect place [] [] place
  | cons {place last : Cursor} {leaves others : List Leaf}
      {statement : SourceTree} {statements : List SourceTree}
      (hspelt : Spelt (skipGap place) leaves statement.stop)
      (hreads : Reads dialect .plain [partStep .plain .statement] leaves
        [statement])
      (hrest : PlainRun dialect statement.stop others statements last) :
      PlainRun dialect place (leaves ++ others) (statement :: statements) last

private theorem plainRun_readPreambleWithin (dialect : Dialect)
    (budget : List Char) (place : Cursor) :
    ∃ leaves, PlainRun dialect place leaves (readPreambleWithin budget place).1
      (readPreambleWithin budget place).2 := by
  induction budget generalizing place with
  | nil => exact ⟨[], .nil⟩
  | cons _ budget ih =>
      rw [readPreambleWithin]
      split
      · exact ⟨[], .nil⟩
      · next statement hstatement =>
        obtain ⟨leaves, hspelt, hreads⟩ :=
          spelt_and_reads_readPlain? dialect hstatement
        obtain ⟨others, hrest⟩ := ih statement.stop
        exact ⟨leaves ++ others, .cons hspelt hreads hrest⟩

private theorem PlainRun.reads_row {place last : Cursor} {others : List Leaf}
    {more : List SourceTree} (h : PlainRun dialect place others more last)
    {leaves : List Leaf} {trees : List SourceTree}
    (hrow : RowSoFar dialect (.part .statement) leaves trees) :
    RowSoFar dialect (.part .statement) (leaves ++ others) (trees ++ more) := by
  induction h generalizing leaves trees with
  | nil => simpa using hrow
  | cons _ hreads _ ih =>
      have hlonger := RowSoFar.grow hrow ⟨[partStep .plain .statement], 0⟩
        (List.mem_singleton_self _) hreads
      simpa using ih (.inr hlonger)

/--
The statements of a preamble follow one another in the text, and the tokens they
are spelt with make, by the rules of every dialect, the same statements as a
script.
-/
theorem preamble_follows_rules (dialect : Dialect) (place : Cursor) :
    ∃ leaves, PlainRun dialect place leaves (readPreamble place).1
        (readPreamble place).2 ∧
      Reads dialect .plain [partStep .plain .script] leaves
        (readPreamble place).1 := by
  obtain ⟨leaves, hrun⟩ := plainRun_readPreambleWithin dialect place.rest place
  refine ⟨leaves, hrun, ?_⟩
  rcases hrun.reads_row (.inl ⟨rfl, rfl⟩) with ⟨hleaves, htrees⟩ | hrow
  · rw [List.nil_append] at hleaves htrees
    rw [readPreamble, hleaves, htrees]
    exact .ofHidden [] (by cases dialect <;> decide +kernel) rfl .nil
  · exact .ofHidden [rowStep (.part .statement)]
      (by cases dialect <;> decide +kernel) rfl hrow

end ImportAtlas.Grammar
