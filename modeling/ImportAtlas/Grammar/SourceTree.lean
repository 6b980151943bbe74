import ImportAtlas.Source.Cursor

/-!
# Syntax trees

The tree of a script. Only the shapes that the search for imports and exports
tells apart have a kind of their own; all other constructs are `other`. Tokens
without a meaning of their own, such as keywords and brackets, leave no tree.
-/

namespace ImportAtlas.Grammar

open Source (Cursor)

inductive Dialect where
  | javaScript
  | typeScript
  | tsx
  deriving DecidableEq, Repr

def Dialect.isTyped : Dialect → Bool
  | .javaScript => false
  | .typeScript | .tsx => true

def Dialect.hasMarkup : Dialect → Bool
  | .javaScript | .tsx => true
  | .typeScript => false

inductive Kind where
  | importStatement
  | importClause
  | namespaceImport
  | namedImports
  | importRequire
  | exportStatement
  | exportClause
  | namespaceExport
  | defaultWord
  | lexicalDeclaration
  | variableDeclaration
  | variableDeclarator
  | objectPattern
  | pairPattern
  | shorthandPattern
  | identifier
  | string
  | template
  | substitution
  | callExpression
  | memberExpression
  | arguments
  | importWord
  | awaitExpression
  | parenthesized
  | statementBlock
  | returnStatement
  | expressionStatement
  | arrowFunction
  | functionExpression
  | other
  deriving DecidableEq, Hashable, Repr

/-- The part that a tree plays in the tree above it. -/
inductive Label where
  | plain
  | head
  | name
  | newName
  | source
  | declaration
  | value
  | property
  | key
  | arguments
  deriving DecidableEq, Hashable, Repr

inductive SourceTree where
  | node (label : Label) (kind : Kind) (start stop : Cursor)
      (children : List SourceTree)

namespace SourceTree

def label : SourceTree → Label
  | .node label _ _ _ _ => label

def kind : SourceTree → Kind
  | .node _ kind _ _ _ => kind

def start : SourceTree → Cursor
  | .node _ _ start _ _ => start

def stop : SourceTree → Cursor
  | .node _ _ _ stop _ => stop

def children : SourceTree → List SourceTree
  | .node _ _ _ _ children => children

def text (tree : SourceTree) : List Char :=
  tree.start.textUntil tree.stop

def child? (tree : SourceTree) (label : Label) : Option SourceTree :=
  tree.children.find? fun child => child.label = label

def childOfKind? (tree : SourceTree) (kind : Kind) : Option SourceTree :=
  tree.children.find? fun child => child.kind = kind

end SourceTree

end ImportAtlas.Grammar
