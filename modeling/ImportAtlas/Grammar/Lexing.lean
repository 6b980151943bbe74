import ImportAtlas.Grammar.Stage
import ImportAtlas.Source.Lexeme
import ImportAtlas.Source.Semicolon

/-!
# The next token

Which token comes next depends on the tokens that the reader admits at that
point. Some tokens depend on more than their own text and are looked for first:
the text of templates and of markup, the ends of statements that are not
written, and the question mark of a condition. All others compete: a higher
priority wins, then the longer token, then a fixed text over a shape.
-/

namespace ImportAtlas.Grammar

open Source

structure Found where
  token : Nat
  skip : Nat
  length : Nat

namespace Found

def shape (shape : Shape) (skip length : Nat) : Found :=
  ⟨shape.index, skip, length⟩

def shape? (kind : Shape) (length : Nat) : Option Found :=
  if length = 0 then none else some (.shape kind 0 length)

end Found

/-! ## Tokens that depend on their surroundings -/

def pageComment? (text : List Char) : Option Found :=
  let blanks := countWhile (fun c => isAsciiBlank c || isLineBreak c) text
  match pageCommentLength (text.drop blanks) with
  | 0 => none
  | length => some (.shape .pageComment blanks length)

/-- The end of a statement that is not written, or else the mark of a condition
where the look stopped. -/
def statementEnd? (typed : Bool) (admitted : TokenSet) (afterExpression : Bool)
    (text : List Char) :
    Option Found :=
  let look :=
    lookForEnd ⟨typed, afterExpression, admitted.hasShape .signatureEnd⟩ text
  if look.ends then some (.shape .statementEnd 0 0)
  else if !look.sawComment && admitted.hasShape .conditionMark &&
      look.rest.head? == some '?' then
    (conditionMark? typed look.rest).map fun skip =>
      .shape .conditionMark (look.count + skip) 1
  else none

/-- The token that the surroundings alone decide; `logicalOr` tells whether
that operator is admitted. -/
def contextual? (typed logicalOr : Bool) (admitted : TokenSet)
    (text : List Char) : Option Found :=
  if admitted.hasShape .templateText then
    if admitted.hasShape .statementEnd then none
    else Found.shape? .templateText (templateTextLength text)
  else
    let markup :=
      if admitted.hasShape .markupText then markupTextLength text else 0
    if 0 < markup then some (.shape .markupText 0 markup)
    else if admitted.hasShape .statementEnd ||
        (typed && admitted.hasShape .signatureEnd) then
      statementEnd? typed admitted logicalOr text
    else if admitted.hasShape .conditionMark then
      (conditionMark? typed text).map fun skip => .shape .conditionMark skip 1
    else if logicalOr || admitted.hasShape .escape ||
      admitted.hasShape .regexBody then none
    else pageComment? text

/-! ## Tokens that compete -/

structure Candidate where
  found : Found
  priority : Int
  tie : Nat

namespace Candidate

def stop (candidate : Candidate) : Nat :=
  candidate.found.skip + candidate.found.length

def beats (candidate other : Candidate) : Bool :=
  other.priority < candidate.priority ||
    (candidate.priority == other.priority &&
      (other.stop < candidate.stop ||
        (candidate.stop == other.stop && other.tie < candidate.tie)))

def best (candidate : Candidate) : Option Candidate → Option Candidate
  | none => some candidate
  | some other => if candidate.beats other then some candidate else some other

end Candidate

def spacedShapes : List (Shape × (List Char → Nat)) :=
  [(.number, numberLength), (.privateName, privateNameLength),
    (.hashBang, hashBangLength), (.characterReference, referenceLength),
    (.markupName, markupNameLength), (.staticGetter, staticGetterLength)]

/-- The shapes that follow the token before without a blank, with their
priorities and lengths. -/
def joinedShapes : List (Shape × Int × (List Char → Nat)) :=
  [(.doubleQuotedText, 1, quotedTextLength '"'),
    (.singleQuotedText, 1, quotedTextLength '\''), (.escape, 0, escapeLength),
    (.doubleQuotedValue, 1, markupValueLength '"'), (.singleQuotedValue, 1,
      markupValueLength '\''), (.regexBody, -1, regexBodyLength),
    (.regexEnd, 1, regexEndLength), (.regexFlags, 0, regexFlagsLength)]

def markCandidate (table : Table) (admitted : TokenSet) (skip : Nat)
    (text : List Char) (best : Option Candidate) : Option Candidate :=
  table.marks.foldl (fun best (mark, token) =>
    if mark.isPrefixOf text && admitted.has token then
      Candidate.best ⟨⟨token, skip, mark.length⟩, 0, 2⟩ best
    else best) best

/-- The word that opens the text; a fixed word counts as one only where it is
admitted. -/
def wordCandidate (table : Table) (admitted : TokenSet) (skip : Nat)
    (text : List Char) (best : Option Candidate) : Option Candidate :=
  if admitted.meets table.wordTokens then
    match wordLength text with
    | 0 => best
    | length =>
      let token :=
        match table.words[String.ofList (text.take length)]? with
        | some token =>
          if admitted.has token then token else Shape.identifier.index
        | none => Shape.identifier.index
      Candidate.best ⟨⟨token, skip, length⟩, 0, 0⟩ best
  else best

def competing? (table : Table) (admitted : TokenSet) (text : List Char) :
    Option Found :=
  let skip := countWhile isBlank text
  let spaced := text.drop skip
  if spaced.isEmpty && admitted.hasShape .endOfText then
    some (.shape .endOfText skip 0)
  else
    let shapes := admitted.shapes
    let best := match commentLength spaced with
      | 0 => none
      | length => some ⟨.shape .comment skip length, 0, 0⟩
    let best := spacedShapes.foldl (fun best (shape, lengthOf) =>
      if shapes.hasShape shape then
        match lengthOf spaced with
        | 0 => best
        | length => Candidate.best ⟨.shape shape skip length, 0, 0⟩ best
      else best) best
    let best := joinedShapes.foldl (fun best (shape, priority, lengthOf) =>
      if shapes.hasShape shape then
        match lengthOf text with
        | 0 => best
        | length => Candidate.best ⟨.shape shape 0 length, priority, 1⟩ best
      else best) best
    let best :=
      wordCandidate table admitted skip spaced
        (markCandidate table admitted skip spaced best)
    best.map Candidate.found

/-- The next token among those that are admitted, or one that is not when
nothing else fits. -/
def nextToken? (table : Table) (admitted : TokenSet) (text : List Char) :
    Option Found :=
  match contextual? table.typed (admitted.has table.logicalOr)
    admitted.shapes text with
  | some found => some found
  | none => competing? table admitted text

end ImportAtlas.Grammar
