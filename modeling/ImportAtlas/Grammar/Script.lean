import ImportAtlas.Grammar.Preamble
import ImportAtlas.Grammar.Reader

/-!
# Scripts

A script is read as its preamble, which needs no rules, and as what follows it.
From the tree that a text has grown into to its source trees, hidden parts are
left out, and what they hold takes their place.
-/

namespace ImportAtlas.Grammar

open Source (Cursor)

namespace Growth

mutual

/--
The source trees of a growing tree, put before others. A label from outside
goes to the trees that stand for a hidden part.
-/
def sourceTrees (table : Table) (label : Label) (kind? : Option Kind) :
    Growth → List SourceTree → List SourceTree
  | .leaf token isComment start stop, others =>
    let kind? := if isComment && token == Shape.pageComment.index then
      some .other else kind?
    match kind? with
    | some kind => .node label kind start stop [] :: others
    | none => others
  | .branch stage start stop _ children, others =>
    let stage := table.stage stage
    match kind?.or ((table.category? stage.owner).bind Category.kind?) with
    | some kind =>
      .node label kind start stop
        (childTrees table .plain children stage.roles.reverse []) :: others
    | none => childTrees table label children stage.roles.reverse others

/-- The source trees of the pieces of a part, which play the given roles;
comments play none. -/
def childTrees (table : Table) (label : Label) :
    List Growth → List Role → List SourceTree → List SourceTree
  | [], _, others => others
  | child :: children, roles, others =>
    match child.isComment, roles with
    | false, role :: roles =>
      child.sourceTrees table (if label = .plain then role.label else label)
        role.kind? (childTrees table label children roles others)
    | _, roles =>
      child.sourceTrees table .plain none
        (childTrees table label children roles others)

end

end Growth

def readByRules (table : Table) (entry : Nat) (place : Cursor) :
    Except Cursor (List SourceTree) :=
  (Reader.read table entry place).map fun tree =>
    tree.sourceTrees table .plain none []

/--
Reads a whole script, or gives the place where it cannot be read on. After a
statement with its semicolon nothing of it is left to decide, so that the rest
is read like a text of its own.
-/
def readScript (dialect : Dialect) (text : List Char) :
    Except Cursor (List SourceTree) :=
  let table := tableOf dialect
  let (statements, place) := readPreamble (Cursor.start text)
  if (skipGap place).atEnd then .ok statements
  else
    let entry := if statements.isEmpty then table.scriptEntry
      else table.laterEntry
    (readByRules table entry place).map (statements ++ ·)

end ImportAtlas.Grammar
