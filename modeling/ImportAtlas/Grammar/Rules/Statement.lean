import ImportAtlas.Grammar.Rules.Shared

/-!
# Statements
-/

namespace ImportAtlas.Grammar.Rules

open Rule

def statement : Rule :=
  parts [.exportStatement, .importStatement, .debuggerStatement,
    .expressionStatement, .declaration, .statementBlock, .ifStatement,
    .switchStatement, .forStatement, .forInStatement, .whileStatement,
    .doStatement, .tryStatement, .withStatement, .breakStatement,
    .continueStatement, .returnStatement, .throwStatement, .emptyStatement,
    .labeledStatement]

def declaration (dialect : Dialect) : Rule :=
  choice ([
    parts [.functionDeclaration, .generatorFunctionDeclaration,
      .classDeclaration, .lexicalDeclaration, .variableDeclaration]] ++
    whenTyped dialect [
      parts [.functionSignature, .abstractClassDeclaration, .moduleDeclaration],
      withRank .declaration (.part .internalModule),
      parts [.typeAliasDeclaration, .enumDeclaration, .interfaceDeclaration,
        .importAlias, .ambientDeclaration]])

def expressionStatement : Rule := seq [expressions, semicolon]

/-! ## Variables -/

def boundTarget : Rule := choice [identifier, .part .destructuringPattern]

def variableDeclaration : Rule :=
  seq [word "var", commas (.part .variableDeclarator), semicolon]

def lexicalDeclaration : Rule :=
  seq [words ["let", "const"], commas (.part .variableDeclarator), semicolon]

def variableDeclarator (dialect : Dialect) : Rule :=
  choice ([
    seq ([.label .name boundTarget] ++ optionalAscription dialect ++
      [maybe (.part .initializer)])] ++
    whenTyped dialect [
      withRank .declaration
      (seq [.label .name identifier, mark "!", .part .typeAscription])])

def initializer : Rule := seq [mark "=", .label .value (.part .expression)]

/-! ## Control flow -/

def statementBlock : Rule :=
  late (seq [openBrace, zeroOrMore (.part .statement), closeBrace,
    unwrittenEnd])

def elseClause : Rule := seq [word "else", .part .statement]

def ifStatement : Rule :=
  late (seq [word "if", .part .parenthesizedExpression, .part .statement,
    maybe (.part .elseClause)])

def switchStatement : Rule :=
  seq [word "switch", .label .value (.part .parenthesizedExpression),
    .part .switchBody]

def switchBody : Rule :=
  braced (zeroOrMore (parts [.switchCase, .switchDefault]))

def switchCase : Rule :=
  seq [word "case", .label .value expressions, mark ":",
    zeroOrMore (.part .statement)]

def switchDefault : Rule :=
  seq [word "default", mark ":", zeroOrMore (.part .statement)]

def forStatement : Rule :=
  seq [word "for", mark "(",
    choice [
      parts [.lexicalDeclaration, .variableDeclaration],
      seq [expressions, mark ";"],
      .part .emptyStatement],
    choice [seq [expressions, mark ";"], .part .emptyStatement],
    maybe expressions,
    mark ")",
    .part .statement]

def forInStatement : Rule :=
  seq [word "for", maybe (word "await"), .part .forHeader, .part .statement]

def whileStatement : Rule :=
  seq [word "while", .part .parenthesizedExpression, .part .statement]

def doStatement : Rule :=
  late (seq [word "do", .part .statement, word "while",
    .part .parenthesizedExpression, maybe semicolon])

def tryStatement : Rule :=
  seq [word "try", .part .statementBlock, maybe (.part .catchClause),
    maybe (.part .finallyClause)]

def catchClause (dialect : Dialect) : Rule :=
  seq [word "catch",
    maybe (enclosed (seq ([boundTarget] ++ optionalAscription dialect))),
    .part .statementBlock]

def finallyClause : Rule := seq [word "finally", .part .statementBlock]

def withStatement : Rule :=
  seq [word "with", .part .parenthesizedExpression, .part .statement]

def breakStatement : Rule := seq [word "break", maybe plainName, semicolon]

def continueStatement : Rule :=
  seq [word "continue", maybe plainName, semicolon]

def debuggerStatement : Rule := seq [word "debugger", semicolon]

def returnStatement : Rule := seq [word "return", maybe expressions, semicolon]

def throwStatement : Rule := seq [word "throw", expressions, semicolon]

def emptyStatement : Rule := mark ";"

def labeledStatement (dialect : Dialect) : Rule :=
  .weighted (-1) (seq [.shown .other (anyName dialect), mark ":",
    .part .statement])

end ImportAtlas.Grammar.Rules
