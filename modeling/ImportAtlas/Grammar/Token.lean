/-!
# Tokens

The smallest pieces of a script. Keywords and marks have a fixed text; all
other tokens are known by their shape. Sets of tokens are kept as bits of a
number, one bit for each token of a dialect.
-/

namespace ImportAtlas.Grammar

inductive Shape where
  | endOfText
  | identifier
  | privateName
  | number
  | hashBang
  | doubleQuotedText
  | singleQuotedText
  | escape
  | regexBody
  | regexEnd
  | regexFlags
  | markupName
  | doubleQuotedValue
  | singleQuotedValue
  | characterReference
  | markupText
  | templateText
  | conditionMark
  /-- The end of a statement without a written semicolon. -/
  | statementEnd
  /-- The same for a function without a body. -/
  | signatureEnd
  | staticGetter
  | comment
  | pageComment
  deriving DecidableEq, Hashable

/-- The number of shapes; words and marks are numbered after them. -/
def Shape.count : Nat := 23

def Shape.index (shape : Shape) : Nat :=
  shape.ctorIdx

inductive Token where
  | shape (shape : Shape)
  | word (text : String)
  | mark (text : String)
  deriving DecidableEq, Hashable

structure TokenSet where
  bits : Nat
  deriving DecidableEq, Hashable

namespace TokenSet

def empty : TokenSet := ⟨0⟩

def single (token : Nat) : TokenSet := ⟨1 <<< token⟩

def union (first second : TokenSet) : TokenSet := ⟨first.bits ||| second.bits⟩

def has (set : TokenSet) (token : Nat) : Bool := set.bits.testBit token

def hasShape (set : TokenSet) (shape : Shape) : Bool := set.has shape.index

def meets (first second : TokenSet) : Bool := first.bits &&& second.bits != 0

def shapes (set : TokenSet) : TokenSet := ⟨set.bits % (1 <<< Shape.count)⟩

end TokenSet

end ImportAtlas.Grammar
