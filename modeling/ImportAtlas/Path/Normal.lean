import ImportAtlas.Path.Basic

/-!
# Normal paths

Folding dots out of a path without looking at any file. A double dot takes back
whatever component stands before it; at the root, or with nothing before it, it
stays.
-/

namespace ImportAtlas.Path

/-- One step of the fold; the components read so far are kept with the last one
first. -/
def foldComponent (done : List Component) : Component → List Component
  | .root => [.root]
  | .current => done
  | .parent =>
    match done with
    | [] => [.parent]
    | .root :: above => .parent :: .root :: above
    | _ :: above => above
  | .normal name => .normal name :: done

def normalComponents (components : List Component) : List Component :=
  (components.foldl foldComponent []).reverse

def normalize (path : Path) : Path :=
  ofComponents (normalComponents path.components)

end ImportAtlas.Path
