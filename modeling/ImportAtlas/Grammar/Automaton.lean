import ImportAtlas.Grammar.Stage

/-!
# The automaton of a table

A state is a set of stages, each with the tokens that may follow the part that
is read there. From a state a symbol leads to a next state, and a token calls
for actions: to end a part, to take the token, or both when only the rest of
the text can tell. States are worked out when they are first needed and
remembered from then on.
-/

namespace ImportAtlas.Grammar

open Std (HashMap)

/-- Stages in the order of their numbers, each with the tokens that may follow
its part. -/
abbrev Kernel := List (Nat × TokenSet)

def Kernel.add (stage : Nat) (followers : TokenSet) : Kernel → Kernel
  | [] => [(stage, followers)]
  | (other, known) :: kernel =>
    if stage < other then (stage, followers) :: (other, known) :: kernel
    else if stage = other then (other, known.union followers) :: kernel
    else (other, known) :: Kernel.add stage followers kernel

inductive Action where
  | reduce (stage : Nat)
  | shift (state : Nat)
  | finish
  deriving DecidableEq

namespace Table

def followersAt (table : Table) (target : Nat) (followers : TokenSet) :
    TokenSet :=
  let stage := table.stage target
  if stage.isComplete then stage.openers.union followers else stage.openers

def openInto (table : Table) (symbol : SymbolId) (followers : TokenSet)
    (kernel : Kernel) :
    NumberedStep × Nat → Kernel
  | (step, target) =>
    let kernel :=
      if step.symbol == symbol then kernel.add target followers else kernel
    match step.symbol with
    | .token _ => kernel
    | .part part =>
      match table.openingsWith part symbol with
      | [] => kernel
      | openings =>
        let after := table.followersAt target followers
        openings.foldl (fun kernel opening =>
          kernel.add opening.stage
            (if opening.passesOn then opening.followers.union after
              else opening.followers)) kernel

def advance (table : Table) (kernel : Kernel) (symbol : SymbolId) : Kernel :=
  kernel.foldl (fun result (number, followers) =>
    (table.stage number).next.foldl (table.openInto symbol followers) result) []

/-- The roots of the empty parts that a token can follow; only whole texts can
be empty. -/
def emptyParts (table : Table) (kernel : Kernel) (token : Nat) : List Nat :=
  kernel.flatMap fun (number, followers) =>
    (table.stage number).next.filterMap fun (step, target) =>
      match step.symbol with
      | .token _ => none
      | .part part =>
        (table.roots[part]?).filter fun root =>
          (table.stage root).isComplete &&
            (table.followersAt target followers).has token

def admitted (table : Table) (kernel : Kernel) : TokenSet :=
  let set := kernel.foldl (fun set (number, followers) =>
    set.union (table.followersAt number followers)) .empty
  let endOfText := Shape.endOfText.index
  if (table.emptyParts kernel endOfText).isEmpty then set
  else set.union (.single endOfText)

def standing (table : Table) (stage : Stage) : Standing :=
  ⟨stage.rank, (table.category? stage.owner).toList⟩

structure Endings where
  stages : List Nat
  standing : Standing
  sides : List (Option Side)

def Endings.weigh (table : Table) (number : Nat) :
    Option Endings → Option Endings
  | none =>
    let stage := table.stage number
    some ⟨[number], table.standing stage, [stage.side]⟩
  | some endings =>
    let stage := table.stage number
    let standing := table.standing stage
    match Standing.compare table.ranks standing endings.standing with
    | .gt => some ⟨[number], standing, [stage.side]⟩
    | .lt => some endings
    | .eq =>
      some ⟨endings.stages ++ [number],
        ⟨standing.rank, standing.categories ++ endings.standing.categories⟩,
        stage.side :: endings.sides⟩

/-- The complete stages that a token can follow, the shorter productions first.
-/
def completed (table : Table) (kernel : Kernel) (token : Nat) : List Nat :=
  let numbers := (kernel.filter fun (number, followers) =>
    (table.stage number).isComplete && followers.has token).map Prod.fst
  numbers.mergeSort fun one other =>
    let first := table.stage one
    let second := table.stage other
    first.depth < second.depth ||
      (first.depth == second.depth && table.position first.owner ≤
        table.position second.owner)

def ongoing (table : Table) (kernel : Kernel) (token : Nat) : List Nat :=
  (kernel.filter fun (number, _) =>
    let stage := table.stage number
    0 < stage.depth && stage.openers.has token).map Prod.fst

/-- Whether all stages belong to one row; a row always ends before its next
member. -/
def areOneRow (table : Table) (numbers : List Nat) : Bool :=
  match numbers with
  | [] => false
  | number :: numbers =>
    let owner := (table.stage number).owner
    owner < table.parts.size && (table.category? owner).isNone &&
      numbers.all fun other => (table.stage other).owner == owner

/-- Which actions remain when a token could be taken and parts could also end
before it. -/
inductive Preference where
  | ends
  | goesOn
  | both

def preference (table : Table) (ongoing complete : List Nat)
    (endings : Endings) : Preference :=
  if table.areOneRow (ongoing ++ complete) then .ends
  else
    let orders := ongoing.map fun number =>
      Standing.compare table.ranks (table.standing (table.stage number))
        endings.standing
    match orders.contains .gt, orders.contains .lt with
    | true, true => .both
    | true, false => .goesOn
    | false, true => .ends
    | false, false =>
      if endings.sides.all (· == some .left) then .ends
      else if endings.sides.all (· == some .right) then .goesOn
      else .both

/-- The actions that a token calls for in a state; `taken` is the state after
the token. -/
def actionsFor (table : Table) (kernel : Kernel) (token : Nat)
    (taken : Option Nat) : List Action :=
  let complete := table.completed kernel token
  let shift := (taken.map Action.shift).toList
  let reduce := fun (numbers : List Nat) => numbers.map fun number =>
    if table.isEnd (table.stage number) then Action.finish
    else Action.reduce number
  match complete.foldl
    (fun endings number => Endings.weigh table number endings) none with
  | none => reduce (table.emptyParts kernel token) ++ shift
  | some endings =>
    if shift.isEmpty then reduce endings.stages
    else
      match table.preference (table.ongoing kernel token) complete endings with
      | .ends => reduce endings.stages
      | .goesOn => shift
      | .both => reduce endings.stages ++ shift

end Table

structure State where
  kernel : Kernel
  admitted : TokenSet

structure Automaton where
  states : Array State
  numbers : HashMap Kernel Nat
  moves : HashMap (Nat × SymbolId) (Option Nat)
  actions : HashMap (Nat × Nat) (List Action)

namespace Automaton

def empty : Automaton := ⟨#[], {}, {}, {}⟩

def number (table : Table) (automaton : Automaton) (kernel : Kernel) :
    Nat × Automaton :=
  match automaton.numbers[kernel]? with
  | some known => (known, automaton)
  | none =>
    let ⟨states, numbers, moves, actions⟩ := automaton
    let fresh := states.size
    (fresh, ⟨states.push ⟨kernel, table.admitted kernel⟩,
      numbers.insert kernel fresh, moves, actions⟩)

def start (table : Table) (entry : Nat) : Automaton :=
  (number table empty [(entry, .single Shape.endOfText.index)]).2

def kernel (automaton : Automaton) (state : Nat) : Kernel :=
  ((automaton.states[state]?).map State.kernel).getD []

def admitted (automaton : Automaton) (state : Nat) : TokenSet :=
  ((automaton.states[state]?).map State.admitted).getD .empty

def move (table : Table) (automaton : Automaton) (state : Nat)
    (symbol : SymbolId) : Option Nat × Automaton :=
  match automaton.moves[(state, symbol)]? with
  | some target => (target, automaton)
  | none =>
    match table.advance (automaton.kernel state) symbol with
    | [] =>
      let ⟨states, numbers, moves, actions⟩ := automaton
      (none, ⟨states, numbers, moves.insert (state, symbol) none, actions⟩)
    | kernel =>
      let (target, ⟨states, numbers, moves, actions⟩) :=
        number table automaton kernel
      (some target,
        ⟨states, numbers, moves.insert (state, symbol) (some target), actions⟩)

def actionsOn (table : Table) (automaton : Automaton) (state token : Nat) :
    List Action × Automaton :=
  match automaton.actions[(state, token)]? with
  | some known => (known, automaton)
  | none =>
    let (taken, automaton) := move table automaton state (.token token)
    let found := table.actionsFor (automaton.kernel state) token taken
    let ⟨states, numbers, moves, actions⟩ := automaton
    (found, ⟨states, numbers, moves, actions.insert (state, token) found⟩)

end Automaton

end ImportAtlas.Grammar
