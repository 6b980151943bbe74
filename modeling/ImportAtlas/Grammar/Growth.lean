import ImportAtlas.Grammar.Stage

/-!
# Growing trees

While a text is read, every part and every token grows into a tree, hidden
parts included. Of two trees over the same text the one with the larger weight
is kept; without a difference in weight, the one whose symbols come first.
-/

namespace ImportAtlas.Grammar

open Source (Cursor)

inductive Growth where
  /-- A token; a comment is one that stands outside the rules. -/
  | leaf (token : Nat) (isComment : Bool) (start stop : Cursor)
  | branch (stage : Nat) (start stop : Cursor) (weight : Int)
      (children : List Growth)

namespace Growth

def start : Growth → Cursor
  | .leaf _ _ start _ => start
  | .branch _ start _ _ _ => start

def stop : Growth → Cursor
  | .leaf _ _ _ stop => stop
  | .branch _ _ stop _ _ => stop

def weight : Growth → Int
  | .leaf _ _ _ _ => 0
  | .branch _ _ _ weight _ => weight

def isComment : Growth → Bool
  | .leaf _ isComment _ _ => isComment
  | .branch _ _ _ _ _ => false

def children : Growth → List Growth
  | .leaf _ _ _ _ => []
  | .branch _ _ _ _ children => children

/-- Where the symbol of a tree stands among all symbols: tokens come before
parts. -/
def position (table : Table) : Growth → Nat
  | .leaf token _ _ _ => token
  | .branch stage _ _ _ _ => 1000 + table.position (table.stage stage).owner

mutual

def compare (table : Table) : Growth → Growth → Ordering
  | .leaf token _ _ _, other => (Ord.compare token (other.position table)).then
      (Ord.compare 0 other.children.length)
  | .branch stage _ _ _ children, other =>
    ((Ord.compare (1000 + table.position (table.stage stage).owner)
      (other.position table)).then
      (Ord.compare children.length other.children.length)).then
        (compareLists table children other.children)

def compareLists (table : Table) : List Growth → List Growth → Ordering
  | one :: ones, other :: others =>
    (compare table one other).then (compareLists table ones others)
  | _, _ => .eq

end

def isSurpassedBy (table : Table) (tree other : Growth) : Bool :=
  tree.weight < other.weight ||
    (tree.weight == other.weight && compare table tree other == .gt)

def isLike (table : Table) (tree other : Growth) : Bool :=
  tree.position table == other.position table && tree.start.index ==
    other.start.index &&
    tree.stop.index == other.stop.index && tree.children.length ==
      other.children.length &&
    tree.isComment == other.isComment

/-- A part made of its children; comments before and after them do not belong
to it. -/
def ofChildren (place : Cursor) (stage : Nat) (weight : Int)
    (children : List Growth) : Growth :=
  let own := children.filter fun child => !child.isComment
  let start := (own.head?.map Growth.start).getD place
  let stop := (own.getLast?.map Growth.stop).getD place
  .branch stage start stop (children.foldl (fun sum child => sum + child.weight)
    weight) children

end Growth

end ImportAtlas.Grammar
