import ImportAtlas.Grammar.Rank
import ImportAtlas.Grammar.Token

/-!
# Rules

A rule tells how a category is written: in terms of tokens, of other
categories, of sequence, choice and repetition. A rule stands for a list of
productions, each a plain sequence of steps. Labels, shown kinds and ranks that
enclose a part of a rule are carried by the steps of that part.
-/

namespace ImportAtlas.Grammar

inductive Rule where
  | nothing
  | token (token : Token)
  | part (category : Category)
  | both (first second : Rule)
  | either (first second : Rule)
  | oneOrMore (body : Rule)
  | label (label : Label) (body : Rule)
  | shown (kind : Kind) (body : Rule)
  | ranked (rank : Rank) (side : Option Side) (body : Rule)
  /-- Of two whole readings the one with the larger weight is taken. -/
  | weighted (weight : Int) (body : Rule)
  deriving DecidableEq, Hashable

namespace Rule

def word (text : String) : Rule := .token (.word text)

def mark (text : String) : Rule := .token (.mark text)

def shape (shape : Shape) : Rule := .token (.shape shape)

def seq : List Rule → Rule
  | [] => .nothing
  | [rule] => rule
  | rule :: rules => .both rule (seq rules)

def choice : List Rule → Rule
  | [] => .nothing
  | [rule] => rule
  | rule :: rules => .either rule (choice rules)

def words (texts : List String) : Rule := choice (texts.map word)

def marks (texts : List String) : Rule := choice (texts.map mark)

def parts (categories : List Category) : Rule := choice (categories.map part)

def maybe (rule : Rule) : Rule := .either rule .nothing

def zeroOrMore (rule : Rule) : Rule := maybe (.oneOrMore rule)

def separated (separator rule : Rule) : Rule :=
  .both rule (zeroOrMore (.both separator rule))

def commas (rule : Rule) : Rule := separated (mark ",") rule

def openBrace : Rule := mark "\x7b"

def closeBrace : Rule := mark "\x7d"

def braced (rule : Rule) : Rule := seq [openBrace, rule, closeBrace]

def bracketed (rule : Rule) : Rule := seq [mark "[", rule, mark "]"]

def enclosed (rule : Rule) : Rule := seq [mark "(", rule, mark ")"]

def withRank (name : RankName) (rule : Rule) : Rule :=
  .ranked (.named name) none rule

def leftmost (name : RankName) (rule : Rule) : Rule :=
  .ranked (.named name) (some .left) rule

def rightmost (name : RankName) (rule : Rule) : Rule :=
  .ranked (.named name) (some .right) rule

def early (rule : Rule) : Rule := .ranked (.level 0) (some .left) rule

def late (rule : Rule) : Rule := .ranked (.level 0) (some .right) rule

end Rule

inductive Symbol where
  | token (token : Token)
  | part (category : Category)
  | row (body : Rule)
  deriving DecidableEq, Hashable

/-- The label of a step and the kind that it is shown as, when it is not its
own. -/
structure Role where
  label : Label
  kind? : Option Kind
  deriving DecidableEq, Hashable

structure Step where
  symbol : Symbol
  role : Role
  rank : Rank
  side : Option Side
  deriving DecidableEq

structure Production where
  steps : List Step
  weight : Int

namespace Production

def empty : Production := ⟨[], 0⟩

def heavier (first second : Int) : Int :=
  if first.natAbs < second.natAbs then second else first

def append (first second : Production) : Production :=
  ⟨first.steps ++ second.steps, heavier first.weight second.weight⟩

def mapLast (change : Step → Step) : List Step → List Step
  | [] => []
  | [step] => [change step]
  | step :: steps => step :: mapLast change steps

end Production

structure Surroundings where
  role : Role
  rank : Rank
  side : Option Side

namespace Surroundings

def outermost : Surroundings := ⟨⟨.plain, none⟩, .none, none⟩

def single (around : Surroundings) (symbol : Symbol) : Production :=
  ⟨[⟨symbol, around.role, around.rank, around.side⟩], 0⟩

end Surroundings

namespace Rule

/-- The last step of a ranked part that is not the last part has the rank from
outside. -/
def restoreLast (outer : Surroundings) (sided : Bool) (step : Step) : Step :=
  { step with
    rank := outer.rank
    side := if sided then outer.side else step.side }

/--
The productions of a rule inside given surroundings; `last` tells that the rule
stands at the end of the whole rule.
-/
def productionsIn : Rule → Surroundings → Bool → List Production
  | .nothing, _, _ => [.empty]
  | .token leaf, around, _ => [around.single (.token leaf)]
  | .part inner, around, _ => [around.single (.part inner)]
  | .oneOrMore body, around, _ => [around.single (.row body)]
  | .both first second, around, last =>
    let seconds := second.productionsIn around last
    (first.productionsIn around false).flatMap fun one => seconds.map one.append
  | .either first second, around, last =>
    first.productionsIn around last ++ second.productionsIn around last
  | .label played body, around, last =>
    body.productionsIn
      { around with role := { around.role with label := played } } last
  | .shown kind body, around, last =>
    body.productionsIn
      { around with role := { around.role with kind? := some kind } } last
  | .ranked rank side body, around, last =>
    let inner :=
      body.productionsIn
        { around with rank := rank, side := side.or around.side } last
    if last then inner
    else inner.map fun one =>
      { one with
        steps := Production.mapLast (restoreLast around side.isSome) one.steps }
  | .weighted weight body, around, last =>
    (body.productionsIn around last).map fun one =>
      { one with weight := Production.heavier weight one.weight }

def productions (rule : Rule) : List Production :=
  rule.productionsIn .outermost true

/-- The productions of a row: one body, or a row and one more body. -/
def rowProductions (body : Rule) : List Production :=
  let single := body.productions
  single ++ single.map fun one =>
    { one with steps := ⟨.row body, ⟨.plain, none⟩, .none, none⟩ :: one.steps }

end Rule

end ImportAtlas.Grammar
