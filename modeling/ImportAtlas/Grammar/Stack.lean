import ImportAtlas.Grammar.Growth

/-!
# Stacks that branch

What has been read and not yet become part of something larger lies on a stack.
Where the text can be read in several ways there are several stacks; they share
what lies below, and two that arrive at the same state and place become one
with several ways down.
-/

namespace ImportAtlas.Grammar

open Source (Cursor)

structure Link where
  below : Nat
  tree : Growth

structure StackNode where
  state : Nat
  place : Cursor
  weight : Int
  links : List Link

def linkBound : Nat := 8

abbrev StackNodes := Array StackNode

namespace StackNodes

def push (nodes : StackNodes) (below : Nat) (tree : Growth) (state : Nat) :
    Nat × StackNodes :=
  let weight := ((nodes[below]?).map StackNode.weight).getD 0 + tree.weight
  (nodes.size, Array.push nodes ⟨state, tree.stop, weight, [⟨below, tree⟩]⟩)

def agree (nodes : StackNodes) (one other : Nat) : Bool :=
  match nodes[one]?, nodes[other]? with
  | some first, some second =>
    first.state == second.state && first.place.index == second.place.index
  | _, _ => false

def joint? (table : Table) (nodes : StackNodes) (link : Link)
    (links : List Link) : Option Nat :=
  links.findIdx? fun known =>
    known.tree.isLike table link.tree &&
      (known.below == link.below || nodes.agree known.below link.below)

/--
Adds a way down to a node. A tree that is already there is joined with the new
one, together with what lies below; between the same two nodes the tree with
the larger weight stays.
-/
def addLink (table : Table) : Nat → Nat → Link → StackNodes → StackNodes
  | 0, _, _, nodes => nodes
  | fuel + 1, here, link, nodes =>
    if link.below = here then nodes
    else
      match nodes[here]?, nodes[link.below]? with
      | some node, some below =>
        let weight := below.weight + link.tree.weight
        match nodes.joint? table link node.links with
        | some index =>
          match node.links[index]? with
          | none => nodes
          | some known =>
            if known.below = link.below then
              if known.tree.weight < link.tree.weight then
                nodes.modify here fun node =>
                  { node with
                    links := node.links.set index link
                    weight := weight }
              else nodes
            else
              let joined := below.links.foldl
                (fun nodes inner => addLink table fuel known.below inner nodes)
                nodes
              joined.modify here fun node =>
                { node with weight := max node.weight weight }
        | none =>
          if linkBound ≤ node.links.length then nodes
          else
            nodes.modify here fun node =>
              { node with
                links := node.links ++ [link]
                weight := max node.weight weight }
      | _, _ => nodes

def join (table : Table) (nodes : StackNodes) (here other : Nat) : StackNodes :=
  (((nodes[other]?).map StackNode.links).getD []).foldl
    (fun nodes link => nodes.addLink table nodes.size here link) nodes

/-! ## Ways down -/

/-- A way down that has been followed to a node, with the trees on it from left
to right. -/
structure Path where
  node : Nat
  trees : List Growth
  count : Nat

def Path.through (path : Path) (link : Link) : Path :=
  ⟨link.below, link.tree :: path.trees,
    if link.tree.isComment then path.count else path.count + 1⟩

structure Base where
  node : Nat
  ways : List (List Growth)

def Base.enter (path : Path) : List Base → List Base
  | [] => [⟨path.node, [path.trees]⟩]
  | base :: bases =>
    if base.node = path.node then
      { base with ways := base.ways ++ [path.trees] } :: bases
    else base :: Base.enter path bases

def pathBound : Nat := 64

structure Descent where
  bases : List Base
  straight : List Path
  branches : List Path

def Descent.follow (nodes : StackNodes) (goal : Nat) (descent : Descent)
    (path : Path) : Descent :=
  if path.count = goal then
    { descent with bases := Base.enter path descent.bases }
  else
    match ((nodes[path.node]?).map StackNode.links).getD [] with
    | [] => descent
    | link :: links =>
      let room :=
        pathBound - (descent.straight.length + descent.branches.length + 1)
      { descent with
        straight := path.through link :: descent.straight
        branches :=
          ((links.take room).map path.through).reverse ++ descent.branches }

def descend (nodes : StackNodes) (goal : Nat) :
    Nat → List Path → List Base → List Base
  | 0, _, bases => bases
  | _ + 1, [], bases => bases
  | fuel + 1, paths, bases =>
    let descent := paths.foldl (Descent.follow nodes goal) ⟨bases, [], []⟩
    descend nodes goal fuel (descent.straight.reverse ++
      descent.branches.reverse) descent.bases

def bases (nodes : StackNodes) (node count : Nat) : List Base :=
  descend nodes count (nodes.size + 1) [⟨node, [], 0⟩] []

end StackNodes

end ImportAtlas.Grammar
