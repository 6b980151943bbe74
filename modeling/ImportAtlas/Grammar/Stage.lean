import ImportAtlas.Grammar.Rulebook
import Std.Data.HashMap

/-!
# Stages

A reader that is in the middle of a construct is at a stage: some steps of a
production lie behind it and others before it. Productions of one category that
begin with the same steps share their stages. The table of a dialect holds all
stages, with numbers for the tokens and parts, and tells which tokens a part
can open with.
-/

namespace ImportAtlas.Grammar

open Std (HashMap)

inductive SymbolId where
  | token (number : Nat)
  | part (number : Nat)
  deriving DecidableEq, Hashable

structure NumberedStep where
  symbol : SymbolId
  role : Role
  rank : Rank
  side : Option Side
  deriving DecidableEq

structure Stage where
  owner : Nat
  depth : Nat
  roles : List Role
  rank : Rank
  side : Option Side
  next : List (NumberedStep × Nat)
  weight : Option Int
  openers : TokenSet

namespace Stage

def root (owner : Nat) : Stage := ⟨owner, 0, [], .none, none, [], none, .empty⟩

def after (stage : Stage) (step : NumberedStep) : Stage :=
  ⟨stage.owner, stage.depth + 1, step.role :: stage.roles, step.rank, step.side,
    [], none, .empty⟩

def isComplete (stage : Stage) : Bool := stage.weight.isSome

end Stage

/-! ## The parts of a dialect -/

def productionsOf (dialect : Dialect) : Symbol → List Production
  | .token _ => []
  | .part category => (ruleOf dialect category).productions
  | .row body => body.rowProductions

def Symbol.isToken : Symbol → Bool
  | .token _ => true
  | _ => false

def collectParts (dialect : Dialect) :
    Nat → List Symbol → HashMap Symbol Nat → Array (Symbol × List Production) →
      HashMap Symbol Nat × Array (Symbol × List Production)
  | 0, _, numbers, parts => (numbers, parts)
  | _ + 1, [], numbers, parts => (numbers, parts)
  | fuel + 1, symbol :: pending, numbers, parts =>
    if symbol.isToken || numbers.contains symbol then
      collectParts dialect fuel pending numbers parts
    else
      let productions := productionsOf dialect symbol
      let inner :=
        productions.flatMap fun production => production.steps.map Step.symbol
      collectParts dialect fuel (inner.eraseDups ++ pending)
        (numbers.insert symbol parts.size) (parts.push (symbol, productions))

/-- Numbers for the tokens of a dialect: shapes first, then words and marks as
they are met. -/
def numberTokens (parts : Array (Symbol × List Production)) :
    HashMap Token Nat :=
  parts.foldl (fun numbers (_, productions) =>
    productions.foldl (fun numbers production =>
      production.steps.foldl (fun numbers step =>
        match step.symbol with
        | .token (.shape shape) => numbers.insert (.shape shape) shape.index
        | .token token =>
          if numbers.contains token then numbers
          else numbers.insert token (Shape.count + numbers.size)
        | _ => numbers) numbers) numbers) {}

def numberSymbol (tokens : HashMap Token Nat) (parts : HashMap Symbol Nat) :
    Symbol → SymbolId
  | .token token => .token (tokens.getD token 0)
  | symbol => .part (parts.getD symbol 0)

/-! ## Building the stages -/

def enterProduction (weight : Int) :
    List NumberedStep → Nat → Array Stage → Array Stage
  | [], here, stages =>
    stages.modify here fun stage => { stage with weight := some weight }
  | step :: steps, here, stages =>
    match stages[here]? with
    | none => stages
    | some stage =>
      match stage.next.find? fun (known, _) => known == step with
      | some (_, next) => enterProduction weight steps next stages
      | none =>
        let next := stages.size
        let stages := stages.modify here fun stage =>
          { stage with next := (step, next) :: stage.next }
        enterProduction weight steps next (stages.push (stage.after step))

def enterPart (number : Symbol → SymbolId) (owner : Nat)
    (productions : List Production) (stages : Array Stage) : Array Stage :=
  let root := stages.size
  productions.foldl (fun stages production =>
    let steps := production.steps.map fun step =>
      ⟨number step.symbol, step.role, step.rank, step.side⟩
    enterProduction production.weight steps root stages)
      (stages.push (.root owner))

def enterParts (number : Symbol → SymbolId)
    (parts : Array (Symbol × List Production)) : Array Stage × Array Nat :=
  parts.foldl
    (fun (stages, roots) (_, productions) =>
      (enterPart number roots.size productions stages, roots.push stages.size))
    (#[], #[])

/-! ## Opening tokens -/

def openersOf (parts : Array TokenSet) : SymbolId → TokenSet
  | .token number => .single number
  | .part number => parts.getD number .empty

def openersOfStage (parts : Array TokenSet) (stage : Stage) : TokenSet :=
  stage.next.foldl
    (fun set (step, _) => set.union (openersOf parts step.symbol)) .empty

def growOpeners (stages : Array Stage) (roots : Array Nat) :
    Nat → Array TokenSet → Array TokenSet
  | 0, parts => parts
  | fuel + 1, parts =>
    let grown := roots.map fun root =>
      ((stages[root]?).map (openersOfStage parts)).getD .empty
    if grown = parts then parts else growOpeners stages roots fuel grown

/-! ## Openings -/

/-- A stage right after the first symbol of a part, with the tokens that may
follow that part. -/
structure Opening where
  stage : Nat
  followers : TokenSet
  passesOn : Bool

abbrev Reach := HashMap Nat (TokenSet × Bool)

def reachThrough (stages : Array Stage) (above : TokenSet × Bool) (target : Nat)
    (known : TokenSet × Bool) :
    TokenSet × Bool :=
  match stages[target]? with
  | none => known
  | some stage =>
    let (set, passesOn) := (known.1.union stage.openers, known.2)
    if stage.isComplete then (set.union above.1, passesOn || above.2)
    else (set, passesOn)

/-- Follows the roots of pending parts, until nothing new is learnt. -/
def growReach (stages : Array Stage) (roots : Array Nat) :
    Nat → List Nat → Reach → Reach
  | 0, _, reach => reach
  | _ + 1, [], reach => reach
  | fuel + 1, part :: pending, reach =>
    let above := reach.getD part (.empty, false)
    let root := (roots[part]?).bind fun root => stages[root]?
    let (pending, reach) :=
      ((root.map Stage.next).getD []).foldl
        (fun (pending, reach) (step, target) =>
      match step.symbol with
      | .token _ => (pending, reach)
      | .part inner =>
        let known := reach[inner]?
        let learnt :=
          reachThrough stages above target (known.getD (.empty, false))
        if known = some learnt then (pending, reach)
        else (inner :: pending, reach.insert inner learnt))
      (pending, reach)
    growReach stages roots fuel pending reach

def openingsOf (stages : Array Stage) (roots : Array Nat) (reach : Reach) :
    HashMap SymbolId (List Opening) :=
  reach.fold (fun openings part (followers, passesOn) =>
    let root := (roots[part]?).bind fun root => stages[root]?
    ((root.map Stage.next).getD []).foldl
      (fun openings (step, target) =>
        let opening : Opening := ⟨target, followers, passesOn⟩
        openings.insert step.symbol (opening :: openings.getD step.symbol []))
      openings) {}

/-! ## Tables -/

structure Table where
  typed : Bool
  stages : Array Stage
  roots : Array Nat
  openings : Array (Thunk (HashMap SymbolId (List Opening)))
  parts : Array Symbol
  ranks : List (List RankEntry)
  words : HashMap String Nat
  wordTokens : TokenSet
  marks : List (List Char × Nat)
  logicalOr : Nat
  /-- The stages before and after a whole script, and before and after its
  later statements. -/
  scriptEntry : Nat
  laterEntry : Nat

namespace Table

def stage (table : Table) (number : Nat) : Stage :=
  table.stages.getD number (.root 0)

def category? (table : Table) (part : Nat) : Option Category :=
  match table.parts[part]? with
  | some (.part category) => some category
  | _ => none

def position (table : Table) (part : Nat) : Nat :=
  match table.category? part with
  | some category => category.position
  | none => 1000 + part

def isEnd (table : Table) (stage : Stage) : Bool :=
  table.parts.size ≤ stage.owner && stage.isComplete

def openingsWith (table : Table) (part : Nat) (symbol : SymbolId) :
    List Opening :=
  match table.openings[part]? with
  | some openings => openings.get.getD symbol []
  | none => []

def entryStages (owner : Nat) (part : Nat) (openers : TokenSet) (next : Nat) :
    List Stage :=
  let step : NumberedStep := ⟨.part part, ⟨.plain, none⟩, .none, none⟩
  [{ Stage.root owner with next := [(step, next)], openers := openers },
    { (Stage.root owner).after step with weight := some 0 }]

def build (dialect : Dialect) : Table :=
  let (numbers, parts) :=
    collectParts dialect 100000 [.part .script, .part .laterStatements] {} #[]
  let tokens := numberTokens parts
  let (stages, roots) := enterParts (numberSymbol tokens numbers) parts
  let partOpeners :=
    growOpeners stages roots (parts.size + 1) (parts.map fun _ => .empty)
  let stages := stages.map fun stage =>
    { stage with openers := openersOfStage partOpeners stage }
  let entries := fun (category : Category) (first : Nat) =>
    let part := numbers.getD (.part category) 0
    entryStages parts.size part (partOpeners.getD part .empty) (first + 1)
  let first := stages.size
  let all :=
    stages ++ (entries .script first).toArray ++
      (entries .laterStatements (first + 2)).toArray
  { typed := dialect.isTyped
    stages := all
    roots := roots
    openings := (Array.range parts.size).map fun part =>
      Thunk.mk fun _ =>
        openingsOf stages roots
          (growReach stages roots (parts.size * 1000) [part]
            (({} : Reach).insert part (.empty, true)))
    parts := parts.map Prod.fst
    ranks := ranksOf dialect
    words := tokens.fold (fun words token number =>
      match token with
      | .word text => words.insert text number
      | _ => words) {}
    wordTokens := tokens.fold (fun set token number =>
      match token with
      | .word _ => set.union (.single number)
      | _ => set) (.single Shape.identifier.index)
    marks := tokens.fold (fun marks token number =>
      match token with
      | .mark text => (text.toList, number) :: marks
      | _ => marks) []
    logicalOr := tokens.getD (.mark "||") 0
    scriptEntry := first
    laterEntry := first + 2 }

end Table

def javaScriptTable : Table := .build .javaScript

def typeScriptTable : Table := .build .typeScript

def tsxTable : Table := .build .tsx

def tableOf : Dialect → Table
  | .javaScript => javaScriptTable
  | .typeScript => typeScriptTable
  | .tsx => tsxTable

end ImportAtlas.Grammar
