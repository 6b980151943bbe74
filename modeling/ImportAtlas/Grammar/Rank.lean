import ImportAtlas.Grammar.Category

/-!
# Ranks

When a construct could end and could also go on, the ranks of the two readings
decide. A rank is a number or a name; names, and categories as well, stand in
lists from the highest to the lowest. Two names that no list holds together are
equal.
-/

namespace ImportAtlas.Grammar

inductive RankName where
  | member
  | templateCall
  | call
  | unary
  | power
  | product
  | sum
  | shift
  | relation
  | equality
  | bitwiseAnd
  | bitwiseXor
  | bitwiseOr
  | logicalAnd
  | logicalOr
  | conditional
  | assignment
  | creation
  | declaration
  | literal
  | object
  | instantiation
  | typedUnary
  | typedBinary
  | extension
  deriving DecidableEq, Hashable

inductive Rank where
  | none
  | level (value : Int)
  | named (name : RankName)
  deriving DecidableEq, Hashable

/-- Which of two equal readings is taken: the one that ends, or the one that
goes on. -/
inductive Side where
  | left
  | right
  deriving DecidableEq, Hashable

inductive RankEntry where
  | named (name : RankName)
  | category (category : Category)
  deriving DecidableEq

structure Standing where
  rank : Rank
  categories : List Category

namespace RankEntry

def isAbout (entry : RankEntry) (standing : Standing) : Bool :=
  match entry with
  | .named wanted => standing.rank == .named wanted
  | .category wanted => standing.categories.contains wanted

end RankEntry

namespace Standing

def compareIn (first second : Standing) :
    Bool → Bool → List RankEntry → Option Ordering
  | _, _, [] => none
  | sawFirst, sawSecond, entry :: entries =>
    if entry.isAbout first then
      if sawSecond then some .lt
      else compareIn first second true sawSecond entries
    else if entry.isAbout second then
      if sawFirst then some .gt
      else compareIn first second sawFirst true entries
    else compareIn first second sawFirst sawSecond entries

def compareByLists (first second : Standing) (lists : List (List RankEntry)) :
    Ordering :=
  ((lists.findSome? fun list =>
    compareIn first second false false list)).getD .eq

/-- The order of two standings. Numbers other than zero are compared with each
other and with no rank. -/
def compare (lists : List (List RankEntry)) (first second : Standing) :
    Ordering :=
  match first.rank, second.rank with
  | .level one, .level other =>
    if one ≠ 0 ∨ other ≠ 0 then Ord.compare one other
    else compareByLists first second lists
  | .level one, .none =>
    if one ≠ 0 then Ord.compare one 0 else compareByLists first second lists
  | .none, .level other =>
    if other ≠ 0 then Ord.compare 0 other else compareByLists first second lists
  | _, _ => compareByLists first second lists

end Standing

end ImportAtlas.Grammar
