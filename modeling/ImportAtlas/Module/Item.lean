import ImportAtlas.Grammar.SourceTree
import ImportAtlas.Module.Record

/-!
# Module items

The imports and exports of a script, read off its syntax tree in source order.
A tree is visited together with the trees above it, nearest first, because a
load inside a lazy wrapper and the names a load is bound to are told from
there.
-/

namespace ImportAtlas

open Grammar (SourceTree Kind)

structure ImportSite where
  specifier : String
  bindings : List Binding
  kind : ImportKind
  line : Nat
  column : Nat
  text : String
  deriving DecidableEq, Repr

inductive ModuleItem where
  | staticImport (site : ImportSite)
  | dynamicImport (site : ImportSite)
  | lazyImport (site : ImportSite)
  | require (site : ImportSite)
  | exportDeclaration (names : List String)
  | exportClause (names : List (String × String))
  | exportDefault (localName : Option String)
  | reExport (site : ImportSite) (names : List (String × String))
  | reExportAll (site : ImportSite) (newName : Option String)
  deriving DecidableEq, Repr

namespace ModuleItem

def textOf (tree : SourceTree) : String :=
  String.ofList tree.text

def isQuote (c : Char) : Bool :=
  c == '"' || c == '\'' || c == '\x60'

/-- The text without the quotes around it; every quote character at either end
is taken off. -/
def unquote (text : List Char) : List Char :=
  ((text.dropWhile isQuote).reverse.dropWhile isQuote).reverse

def stringValue? (tree : SourceTree) : Option String :=
  match tree.kind with
  | .string => some (String.ofList (unquote tree.text))
  | .template =>
    if tree.children.any fun child => child.kind = .substitution then none
    else some (String.ofList (unquote tree.text))
  | _ => none

def nameOf (tree : SourceTree) : String :=
  match tree.kind with
  | .string => String.ofList (unquote tree.text)
  | _ => textOf tree

/-- The two names of `name as newName`; a name that is kept serves for both. -/
def namePair? (tree : SourceTree) : Option (String × String) :=
  (tree.child? .name).map fun name =>
    (nameOf name, ((tree.child? .newName).map nameOf).getD (nameOf name))

def siteAt (lineOffset : Nat) (tree : SourceTree) (specifier : String)
    (bindings : List Binding) (kind : ImportKind) : ImportSite where
  specifier := specifier
  bindings := bindings
  kind := kind
  line := tree.start.line + 1 + lineOffset
  column := tree.start.column + 1
  text := textOf tree

/-! ## Import statements -/

def clauseBindings (clause : SourceTree) : List Binding :=
  clause.children.flatMap fun child =>
    match child.kind with
    | .identifier => [.defaultAs (textOf child)]
    | .namespaceImport =>
      ((child.childOfKind? .identifier).map fun name =>
        Binding.wholeAs (textOf name)).toList
    | .namedImports =>
      (child.children.filterMap namePair?).map fun (imported, localName) =>
        ⟨imported, localName⟩
    | _ => []

def requireBindings (clause : SourceTree) : List Binding :=
  (clause.children.filter fun child => child.kind = .identifier).map fun name =>
    .wholeAs (textOf name)

def staticImport? (lineOffset : Nat) (tree : SourceTree) : Option ModuleItem :=
  let bindings := tree.children.flatMap fun child =>
    match child.kind with
    | .importClause => clauseBindings child
    | .importRequire => requireBindings child
    | _ => []
  let source :=
    (tree.child? .source).or ((tree.childOfKind? .importRequire).bind
      fun clause => clause.child? .source)
  (source.bind stringValue?).map fun specifier =>
    .staticImport (siteAt lineOffset tree specifier bindings
      (.ofBindings bindings))

/-! ## Export statements -/

def clauseNames (clause : SourceTree) : List (String × String) :=
  clause.children.filterMap namePair?

def declaredName? (tree : SourceTree) : Option String :=
  (tree.child? .name).map textOf

def declaredNames (declaration : SourceTree) : List String :=
  match declaration.kind with
  | .lexicalDeclaration | .variableDeclaration =>
    declaration.children.filterMap fun declarator =>
      if declarator.kind = .variableDeclarator then
        (declarator.child? .name).bind fun name =>
          if name.kind = .identifier then some (textOf name) else none
      else none
  | _ => (declaredName? declaration).toList

def defaultLocalName? (tree : SourceTree) : Option String :=
  ((tree.child? .declaration).or (tree.child? .value)).bind fun target =>
    if target.kind = .identifier then some (textOf target)
    else declaredName? target

/-- The new name of a module that is passed on as a whole; a comment may stand
before it. -/
def wholeNewName? (tree : SourceTree) : Option String :=
  (tree.childOfKind? .namespaceExport).bind fun whole =>
    (whole.children.find? fun child => child.kind = .identifier ∨
      child.kind = .string).map nameOf

def passedOn (lineOffset : Nat) (tree : SourceTree) (specifier : String) :
    ModuleItem :=
  match tree.childOfKind? .exportClause with
  | some clause =>
    let names := clauseNames clause
    let bindings := names.map fun (name, _) => Binding.named name
    .reExport (siteAt lineOffset tree specifier bindings (.ofBindings bindings))
      names
  | none =>
    let newName := wholeNewName? tree
    .reExportAll (siteAt lineOffset tree specifier
      [.wholeAs (newName.getD wholeName)] .whole) newName

def export? (lineOffset : Nat) (tree : SourceTree) : Option ModuleItem :=
  match (tree.child? .source).bind stringValue? with
  | some specifier => some (passedOn lineOffset tree specifier)
  | none =>
    if tree.children.any fun child => child.kind = .defaultWord then
      some (.exportDefault (defaultLocalName? tree))
    else
      match tree.childOfKind? .exportClause with
      | some clause => some (.exportClause (clauseNames clause))
      | none =>
        match ((tree.child? .declaration).map declaredNames).getD [] with
        | [] => none
        | names => some (.exportDeclaration names)

/-! ## Calls that load a module -/

def lazyWrappers : List String :=
  ["lazy", "dynamic", "loadable", "lazyWithPreload", "defineAsyncComponent"]

/-- Constructs that may stand between a load and the function around it. -/
def isTransparent : Kind → Bool
  | .statementBlock | .returnStatement | .parenthesized | .awaitExpression
  | .expressionStatement | .callExpression | .memberExpression | .arguments
  | .variableDeclarator | .lexicalDeclaration | .variableDeclaration => true
  | _ => false

def isFunction : Kind → Bool
  | .arrowFunction | .functionExpression => true
  | _ => false

def calleeName? (call : SourceTree) : Option String :=
  (call.child? .head).bind fun callee =>
    match callee.kind with
    | .identifier => some (textOf callee)
    | .memberExpression => (callee.child? .property).map textOf
    | _ => none

/-- The call of a lazy wrapper around a load, with the trees above that call. -/
def lazyCall? : List SourceTree → Option (SourceTree × List SourceTree)
  | [] => none
  | tree :: above =>
    if isFunction tree.kind then
      match above with
      | arguments :: call :: outer =>
        if arguments.kind = .arguments ∧ call.kind = .callExpression then
          match calleeName? call with
          | some name =>
            if name ∈ lazyWrappers then some (call, outer) else none
          | none => none
        else none
      | _ => none
    else if isTransparent tree.kind then lazyCall? above
    else none

def declaratorName? (above : List SourceTree) : Option String :=
  above.head?.bind fun declarator =>
    if declarator.kind = .variableDeclarator then
      (declarator.child? .name).bind fun name =>
        if name.kind = .identifier then some (textOf name) else none
    else none

def patternBinding? (tree : SourceTree) : Option Binding :=
  match tree.kind with
  | .shorthandPattern => some (.named (textOf tree))
  | .pairPattern =>
    match tree.child? .key, tree.child? .value with
    | some key, some value =>
      if value.kind = .identifier then some ⟨nameOf key, textOf value⟩ else none
    | _, _ => none
  | _ => none

/-- The bindings made by declaring the given value, which may be awaited first.
-/
def assignedBindings (value : SourceTree) (above : List SourceTree) :
    List Binding :=
  match above with
  | [] => []
  | outer :: rest =>
    let (value, above) := if outer.kind = .awaitExpression then (outer, rest)
      else (value, above)
    match above with
    | [] => []
    | declarator :: _ =>
      if declarator.kind = .variableDeclarator ∧ value.label = .value then
        match declarator.child? .name with
        | some name =>
          match name.kind with
          | .identifier => [.wholeAs (textOf name)]
          | .objectPattern => name.children.filterMap patternBinding?
          | _ => []
        | none => []
      else []

def calledSpecifier? (call : SourceTree) : Option String :=
  (call.child? .arguments).bind fun arguments =>
    arguments.children.head?.bind stringValue?

def dynamicItem (lineOffset : Nat) (call : SourceTree) (above : List SourceTree)
    (specifier : String) : ModuleItem :=
  match lazyCall? above with
  | some (wrapper, outer) =>
    let bindings := ((declaratorName? outer).map Binding.defaultAs).toList
    .lazyImport (siteAt lineOffset wrapper specifier bindings .standard)
  | none =>
    let bindings := assignedBindings call above
    .dynamicImport (siteAt lineOffset call specifier bindings
      (.ofBindings bindings))

def call? (lineOffset : Nat) (call : SourceTree) (above : List SourceTree) :
    Option ModuleItem :=
  (call.child? .head).bind fun callee =>
    if callee.kind = .importWord then
      (calledSpecifier? call).map (dynamicItem lineOffset call above)
    else if callee.kind = .identifier ∧ textOf callee = "require" then
      (calledSpecifier? call).map fun specifier =>
        let bindings := assignedBindings call above
        .require (siteAt lineOffset call specifier bindings
          (.ofBindings bindings))
    else none

/-! ## Whole trees -/

def own? (lineOffset : Nat) (tree : SourceTree) (above : List SourceTree) :
    Option ModuleItem :=
  match tree.kind with
  | .importStatement => staticImport? lineOffset tree
  | .exportStatement => export? lineOffset tree
  | .callExpression => call? lineOffset tree above
  | _ => none

mutual

/-- The items of a tree, each before those inside it. -/
def ofTree (lineOffset : Nat) (above : List SourceTree) :
    SourceTree → List ModuleItem
  | .node label kind start stop children =>
    let tree := SourceTree.node label kind start stop children
    (own? lineOffset tree above).toList ++
      ofTrees lineOffset (tree :: above) children

def ofTrees (lineOffset : Nat) (above : List SourceTree) :
    List SourceTree → List ModuleItem
  | [] => []
  | tree :: trees =>
    ofTree lineOffset above tree ++ ofTrees lineOffset above trees

end

end ModuleItem

end ImportAtlas
