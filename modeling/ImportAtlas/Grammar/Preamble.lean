import ImportAtlas.Grammar.SourceTree
import ImportAtlas.Source.Lexeme

/-!
# Preambles

Most scripts begin with plain module statements: imports and exports of ASCII
names and of strings without escapes, each with spaces alone between its pieces
and with a semicolon at its end. Every dialect reads them in the same way, so
that they need no table: a statement is cut into pieces, and the kinds of its
pieces tell its tree. The rules of the dialects make the same trees of the same
tokens, as `preamble_follows_rules` says; whoever changes a rule of imports or
exports is told there if the two ways part.
-/

namespace ImportAtlas.Grammar

open Source

inductive PieceKind where
  | importWord
  | exportWord
  | fromWord
  | asWord
  | name
  | quoted
  | star
  | comma
  | opening
  | closing
  | ending
  deriving DecidableEq, Repr

structure Piece where
  kind : PieceKind
  start : Cursor
  stop : Cursor

namespace Piece

/-! ## Cutting a statement into pieces -/

def isNamePart (c : Char) : Bool :=
  c.isAlphanum || c == '_' || c == '$'

/-- The kind of a word; the words that restrict a statement to types are not
plain. -/
def kindOfWord? (word : List Char) : Option PieceKind :=
  if word = "import".toList then some .importWord
  else if word = "export".toList then some .exportWord
  else if word = "from".toList then some .fromWord
  else if word = "as".toList then some .asWord
  else if word = "type".toList ∨ word = "typeof".toList then none
  else if word.all isNamePart then some .name
  else none

def kindOfMark? : Char → Option PieceKind
  | '*' => some .star
  | ',' => some .comma
  | '{' => some .opening
  | '}' => some .closing
  | ';' => some .ending
  | _ => none

def look? (text : List Char) : Option (PieceKind × Nat) :=
  match text with
  | [] => none
  | c :: rest =>
    if c == '"' || c == '\'' then
      let inside := quotedTextLength c rest
      if (rest.drop inside).head? == some c then some (.quoted, inside + 2)
      else none
    else
      match kindOfMark? c with
      | some kind => some (kind, 1)
      | none =>
        let length := wordLength text
        if length = 0 then none
        else (kindOfWord? (text.take length)).map fun kind => (kind, length)

/-- The pieces from a place on up to a semicolon; the budget is the text
itself. -/
def readWithin? : List Char → Cursor → Option (List Piece)
  | [], _ => none
  | _ :: budget, place =>
    let start := place.advance (countWhile (· == ' ') place.rest)
    match look? start.rest with
    | none => none
    | some (kind, length) =>
      let piece : Piece := ⟨kind, start, start.advance length⟩
      if kind = .ending then some [piece]
      else (readWithin? budget piece.stop).map (piece :: ·)

def read? (place : Cursor) : Option (List Piece) :=
  readWithin? place.rest place

/-! ## The tree of a statement -/

def nameTree (label : Label) (start stop : Cursor) : SourceTree :=
  .node label .identifier start stop []

def keptTree (start stop : Cursor) : SourceTree :=
  .node .plain .other start stop [nameTree .name start stop]

def renamedTree (start stop newStart newStop : Cursor) : SourceTree :=
  .node .plain .other start newStop [nameTree .name start stop,
    nameTree .newName newStart newStop]

def sourceOf? : List Piece → Option (SourceTree × Cursor)
  | [⟨.quoted, start, stop⟩, ⟨.ending, _, last⟩] =>
    some (.node .source .string start stop [], last)
  | _ => none

def fromSourceOf? : List Piece → Option (SourceTree × Cursor)
  | ⟨.fromWord, _, _⟩ :: pieces => sourceOf? pieces
  | _ => none

/-- The names up to a closing brace, the place after it, and the pieces after
it. -/
def namesOf? : List Piece → Option (List SourceTree × Cursor × List Piece)
  | ⟨.name, start, stop⟩ :: ⟨.closing, _, last⟩ :: pieces =>
    some ([keptTree start stop], last, pieces)
  | ⟨.name, start, stop⟩ :: ⟨.comma, _, _⟩ :: pieces =>
    (namesOf? pieces).map fun (names, rest) =>
      (keptTree start stop :: names, rest)
  | ⟨.name, start, stop⟩ :: ⟨.asWord, _, _⟩ :: ⟨.name, newStart,
      newStop⟩ :: ⟨.closing, _, last⟩ :: pieces =>
    some ([renamedTree start stop newStart newStop], last, pieces)
  | ⟨.name, start, stop⟩ :: ⟨.asWord, _, _⟩ :: ⟨.name, newStart,
      newStop⟩ :: ⟨.comma, _, _⟩ :: pieces =>
    (namesOf? pieces).map fun (names, rest) =>
      (renamedTree start stop newStart newStop :: names, rest)
  | _ => none

def severalOf? (whole named : Kind) :
    List Piece → Option (SourceTree × List Piece)
  | ⟨.star, start, _⟩ :: ⟨.asWord, _, _⟩ :: ⟨.name, nameStart,
      stop⟩ :: pieces =>
    some (.node .plain whole start stop [nameTree .plain nameStart stop],
      pieces)
  | ⟨.opening, start, _⟩ :: pieces =>
    (namesOf? pieces).map fun (names, stop, rest) =>
      (.node .plain named start stop names, rest)
  | _ => none

def importClauseOf? : List Piece → Option (SourceTree × List Piece)
  | ⟨.name, start, stop⟩ :: ⟨.comma, _, _⟩ :: pieces =>
    (severalOf? .namespaceImport .namedImports pieces).map
        fun (several, rest) =>
      (.node .plain .importClause start several.stop
        [nameTree .plain start stop, several], rest)
  | ⟨.name, start, stop⟩ :: pieces =>
    some (.node .plain .importClause start stop [nameTree .plain start stop],
      pieces)
  | pieces =>
    (severalOf? .namespaceImport .namedImports pieces).map
        fun (several, rest) =>
      (.node .plain .importClause several.start several.stop [several], rest)

def importOf? (start : Cursor) (pieces : List Piece) : Option SourceTree :=
  match sourceOf? pieces with
  | some (source, stop) =>
    some (.node .plain .importStatement start stop [source])
  | none =>
    match importClauseOf? pieces with
    | none => none
    | some (clause, rest) =>
      (fromSourceOf? rest).map fun (source, stop) =>
        .node .plain .importStatement start stop [clause, source]

def exportOf? (start : Cursor) (pieces : List Piece) : Option SourceTree :=
  match severalOf? .namespaceExport .exportClause pieces with
  | some (several, [⟨.ending, _, stop⟩]) =>
    if several.kind = .exportClause then
      some (.node .plain .exportStatement start stop [several])
    else none
  | some (several, rest) =>
    (fromSourceOf? rest).map fun (source, stop) =>
      .node .plain .exportStatement start stop [several, source]
  | none =>
    match pieces with
    | ⟨.star, _, _⟩ :: rest =>
      (fromSourceOf? rest).map fun (source, stop) =>
        .node .plain .exportStatement start stop [source]
    | _ => none

def statementOf? : List Piece → Option SourceTree
  | ⟨.importWord, start, _⟩ :: pieces => importOf? start pieces
  | ⟨.exportWord, start, _⟩ :: pieces => exportOf? start pieces
  | _ => none

end Piece

/-! ## Statement after statement -/

def skipGapWithin : List Char → Cursor → Cursor
  | [], place => place
  | _ :: budget, place =>
    let start := place.advance (countWhile isBlank place.rest)
    match start.rest with
    | '/' :: '/' :: _ =>
      skipGapWithin budget (start.advance (commentLength start.rest))
    | _ => start

def skipGap (place : Cursor) : Cursor :=
  skipGapWithin place.rest place

def readPlain? (place : Cursor) : Option SourceTree :=
  (Piece.read? place).bind Piece.statementOf?

def readPreambleWithin : List Char → Cursor → List SourceTree × Cursor
  | [], place => ([], place)
  | _ :: budget, place =>
    match readPlain? (skipGap place) with
    | none => ([], place)
    | some statement =>
      let (statements, last) := readPreambleWithin budget statement.stop
      (statement :: statements, last)

def readPreamble (place : Cursor) : List SourceTree × Cursor :=
  readPreambleWithin place.rest place

end ImportAtlas.Grammar
