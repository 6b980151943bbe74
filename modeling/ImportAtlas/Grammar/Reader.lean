import ImportAtlas.Grammar.Automaton
import ImportAtlas.Grammar.Lexing
import ImportAtlas.Grammar.Stack

/-!
# Reading a text

The reader goes through a text token by token. Each of its heads is one way to
read the text so far. A token can end parts, which replaces their pieces on the
stack by one tree, and is then put on the stack itself. A head that a token
does not fit is given up, as long as another one goes on.
-/

namespace ImportAtlas.Grammar

open Source (Cursor)

inductive HeadStatus where
  | active
  | stuck
  | done
  deriving DecidableEq

structure Head where
  node : Nat
  status : HeadStatus

structure Reader where
  automaton : Automaton
  nodes : StackNodes
  heads : Array Head
  finished : Option Growth
  farthest : Cursor

/-- The most heads that are kept after each round. -/
def headBound : Nat := 6

def headSurplus : Nat := 4

namespace Reader

def start (table : Table) (entry : Nat) (place : Cursor) : Reader where
  automaton := .start table entry
  nodes := #[⟨0, place, 0, []⟩]
  heads := #[⟨0, .active⟩]
  finished := none
  farthest := place

def node? (reader : Reader) (version : Nat) : Option StackNode :=
  (reader.heads[version]?).bind fun head => reader.nodes[head.node]?

def setStatus (reader : Reader) (version : Nat) (status : HeadStatus) :
    Reader :=
  { reader with
    heads := reader.heads.modify version fun head =>
      { head with status := status } }

def giveUp (reader : Reader) (version : Nat) (place : Cursor) : Reader :=
  let farthest := if reader.farthest.index ≤ place.index then place
    else reader.farthest
  { reader.setStatus version .stuck with farthest := farthest }

def push (reader : Reader) (version : Nat) (tree : Growth) (state : Nat) :
    Reader :=
  let ⟨automaton, nodes, heads, finished, farthest⟩ := reader
  match heads[version]? with
  | none => ⟨automaton, nodes, heads, finished, farthest⟩
  | some head =>
    let (node, nodes) := nodes.push head.node tree state
    ⟨automaton, nodes, heads.setIfInBounds version ⟨node, .active⟩,
      finished, farthest⟩

/-! ## Ending a part -/

def splitComments (trees : List Growth) : List Growth × List Growth :=
  let back := trees.reverse
  ((back.dropWhile Growth.isComment).reverse,
    (back.takeWhile Growth.isComment).reverse)

def bestTree (table : Table) (place : Cursor) (stage : Nat)
    (ways : List (List Growth)) : Option (Growth × List Growth) :=
  let weight := ((table.stage stage).weight).getD 0
  ways.foldl (fun best way =>
    let (children, comments) := splitComments way
    let tree := Growth.ofChildren place stage weight children
    match best with
    | none => some (tree, comments)
    | some (known, _) =>
      if known.isSurpassedBy table tree then some (tree, comments)
      else best) none

/-- The first head, other than the one that is at work, that a node can be
joined with. -/
def partner? (nodes : StackNodes) (heads : Array Head) (version node : Nat) :
    Option Nat :=
  (List.range heads.size).find? fun other =>
    other != version &&
      match heads[other]? with
      | some head => head.status == .active && nodes.agree head.node node
      | none => false

/-- Puts a part in place of its pieces above one node; the new head may join
another one. -/
def reduceAbove (table : Table) (version stage doneCount : Nat) (place : Cursor)
    (reader : Reader) (base : StackNodes.Base) : Reader :=
  if headBound + headSurplus + doneCount < reader.heads.size then reader
  else
    match bestTree table place stage base.ways, reader.nodes[base.node]? with
    | some (tree, comments), some below =>
      let ⟨automaton, nodes, heads, finished, farthest⟩ := reader
      let (target, automaton) :=
        automaton.move table below.state (.part (table.stage stage).owner)
      let state := target.getD 0
      let (top, nodes) := nodes.push base.node tree state
      let (top, nodes) :=
        comments.foldl (fun (top, nodes) comment =>
          nodes.push top comment state) (top, nodes)
      match partner? nodes heads version top with
      | some other =>
        let here := ((heads[other]?).map Head.node).getD 0
        ⟨automaton, nodes.join table here top, heads, finished, farthest⟩
      | none =>
        ⟨automaton, nodes, heads.push ⟨top, .active⟩, finished, farthest⟩
    | _, _ => reader

def reduce (table : Table) (version stage : Nat) (reader : Reader) : Reader :=
  match reader.heads[version]? with
  | none => reader
  | some head =>
    let place :=
      ((reader.nodes[head.node]?).map StackNode.place).getD reader.farthest
    let doneCount :=
      reader.heads.foldl (fun count head => if head.status = .done then
        count + 1 else count) 0
    let bases := reader.nodes.bases head.node (table.stage stage).depth
    bases.foldl (reduceAbove table version stage doneCount place) reader

def finish (table : Table) (version : Nat) (reader : Reader) : Reader :=
  match reader.heads[version]? with
  | none => reader
  | some head =>
    let trees := (reader.nodes.bases head.node 1).flatMap fun base =>
      base.ways.filterMap fun way => way.find? fun tree => !tree.isComment
    let finished := trees.foldl (fun best tree =>
      match best with
      | none => some tree
      | some known =>
        if known.isSurpassedBy table tree then some tree
        else best) reader.finished
    { reader.setStatus version .done with finished := finished }

/-! ## One token -/

inductive Progress where
  | settled (reader : Reader)
  /-- Parts have ended; the last of the heads that came of it, if any, goes on
  with the token. -/
  | reduced (reader : Reader) (next : Option Nat)
  | nothing (reader : Reader)

def perform (table : Table) (version : Nat) (leaf : Growth) :
    List Action → (didReduce : Bool) → Option Nat → Reader → Progress
  | [], didReduce, next, reader =>
    if didReduce then .reduced reader next else .nothing reader
  | .shift state :: _, _, _, reader => .settled (reader.push version leaf state)
  | .finish :: _, _, _, reader => .settled (reader.finish table version)
  | .reduce stage :: actions, _, next, reader =>
    let before := reader.heads.size
    let reader := reader.reduce table version stage
    perform table version leaf actions true
      (if before < reader.heads.size then some before else next) reader

def replaceHead (reader : Reader) (version other : Nat) : Reader :=
  match reader.heads[other]? with
  | none => reader
  | some head =>
    { reader with
      heads :=
        (reader.heads.setIfInBounds version head).eraseIdxIfInBounds other }

def isFixedWord (table : Table) (token : Nat) : Bool :=
  token != Shape.identifier.index && table.wordTokens.has token

def take (table : Table) (version : Nat) (start stop : Cursor) :
    Nat → Nat → Reader → Reader
  | 0, _, reader => reader.giveUp version start
  | fuel + 1, token, reader =>
    match reader.node? version with
    | none => reader
    | some node =>
      let ⟨automaton, nodes, heads, finished, farthest⟩ := reader
      let (actions, automaton) := automaton.actionsOn table node.state token
      let reader := ⟨automaton, nodes, heads, finished, farthest⟩
      match perform table version (.leaf token false start stop) actions false
        none reader with
      | .settled reader => reader
      | .reduced reader (some next) =>
        take table version start stop fuel token
          (reader.replaceHead version next)
      | .reduced reader none => reader.setStatus version .done
      | .nothing reader =>
        if isFixedWord table token &&
            (reader.automaton.admitted node.state).hasShape .identifier then
          take table version start stop fuel Shape.identifier.index reader
        else reader.giveUp version node.place

def advance (table : Table) (fuel version : Nat) (reader : Reader) : Reader :=
  match reader.node? version with
  | none => reader
  | some node =>
    match nextToken? table (reader.automaton.admitted node.state)
      node.place.rest with
    | none => reader.giveUp version node.place
    | some found =>
      let start := node.place.advance found.skip
      let stop := start.advance found.length
      if found.token = Shape.comment.index ∨
          found.token = Shape.pageComment.index then
        reader.push version (.leaf found.token true start stop) node.state
      else take table version start stop fuel found.token reader

/-! ## Rounds -/

def isActive (reader : Reader) (version : Nat) : Bool :=
  match reader.heads[version]? with
  | some head => head.status == .active
  | none => false

/-- Lets a head read until it is past the place that any head has reached; only
the first one has to be. -/
def catchUp (table : Table) (bound version : Nat) :
    Nat → (reached : Nat) → Reader → Nat × Reader
  | 0, reached, reader => (reached, reader)
  | fuel + 1, reached, reader =>
    if reader.isActive version then
      let reader := reader.advance table bound version
      let place :=
        ((reader.node? version).map fun node => node.place.index).getD 0
      if reached < place ∨ (0 < version ∧ place = reached) then (place, reader)
      else catchUp table bound version fuel reached reader
    else (reached, reader)

def readRound (table : Table) (bound : Nat) :
    Nat → (version reached : Nat) → Reader → Nat × Reader
  | 0, _, reached, reader => (reached, reader)
  | fuel + 1, version, reached, reader =>
    if version < reader.heads.size then
      let (reached, reader) := reader.catchUp table bound version bound reached
      readRound table bound fuel (version + 1) reached reader
    else (reached, reader)

def weightOf (nodes : StackNodes) (head : Head) : Int :=
  ((nodes[head.node]?).map StackNode.weight).getD 0

/--
Puts a head among those that are in order: heads that go on displace those that
are stuck, heads at the same state and place are joined, and the heavier of two
comes first.
-/
def settle (table : Table) :
    Head → List Head → StackNodes → List Head × StackNodes
  | head, [], nodes => ([head], nodes)
  | head, known :: others, nodes =>
    if head.status = .stuck ∧ known.status ≠ .stuck then
      (known :: others, nodes)
    else if known.status = .stuck ∧ head.status ≠ .stuck then
      settle table head others nodes
    else if head.status = .active ∧ known.status = .active ∧
        nodes.agree known.node head.node then
      (known :: others, nodes.join table known.node head.node)
    else if weightOf nodes head ≤ weightOf nodes known then
      let (rest, nodes) := settle table head others nodes
      (known :: rest, nodes)
    else
      let (rest, nodes) := settle table known others nodes
      (head :: rest, nodes)

def condense (table : Table) (reader : Reader) : Reader :=
  let ⟨automaton, nodes, heads, finished, farthest⟩ := reader
  let (ordered, nodes) := heads.foldl (fun (ordered, nodes) head =>
    if head.status = .done then (ordered, nodes)
    else settle table head ordered nodes) ([], nodes)
  ⟨automaton, nodes, (ordered.take headBound).toArray, finished, farthest⟩

def readRounds (table : Table) (bound : Nat) :
    Nat → (reached : Nat) → Reader → Reader
  | 0, _, reader => reader
  | fuel + 1, reached, reader =>
    let (reached, reader) := reader.readRound table bound bound 0 reached
    let reader := reader.condense table
    if reader.heads.any fun head =>
      head.status == .active then readRounds table bound fuel reached reader
    else reader

def read (table : Table) (entry : Nat) (place : Cursor) :
    Except Cursor Growth :=
  let bound := 1000 + 40 * place.rest.length
  let reader :=
    (Reader.start table entry place).readRounds table bound bound place.index
  match reader.finished with
  | some tree => .ok tree
  | none => .error reader.farthest

end Reader

end ImportAtlas.Grammar
