import ImportAtlas.Grammar.Rules.Shared

/-!
# Scripts, imports and exports
-/

namespace ImportAtlas.Grammar.Rules

open Rule

def script : Rule :=
  seq [maybe (shape .hashBang), zeroOrMore (.part .statement)]

/-- The statements of a script after some that are already read. -/
def laterStatements : Rule := zeroOrMore (.part .statement)

def typeWord : Rule := words ["type", "typeof"]

def typeAsName : Rule := .shown .identifier (word "type")

def exportStatement (dialect : Dialect) : Rule :=
  choice ([
    seq [word "export",
      choice [
        seq [mark "*", .part .fromClause],
        seq [.part .namespaceExport, .part .fromClause],
        seq [.part .exportClause, .part .fromClause],
        .part .exportClause],
      semicolon],
    seq [zeroOrMore (.part .decorator), word "export",
      choice [
        .label .declaration (.part .declaration),
        seq [.shown .defaultWord (word "default"),
          choice [
            .label .declaration (.part .declaration),
            seq [.label .value (.part .expression), semicolon]]]]]] ++
    whenTyped dialect [
      seq [word "export", word "type", .part .exportClause,
        maybe (.part .fromClause), semicolon],
      seq [word "export", mark "=", .part .expression, semicolon],
      seq [word "export", word "as", word "namespace", identifier, semicolon]])

def namespaceExport : Rule := seq [mark "*", word "as", .part .exportName]

def exportClause : Rule :=
  braced (seq [maybe (commas (.part .exportSpecifier)), maybe (mark ",")])

def exportSpecifier (dialect : Dialect) : Rule :=
  seq (whenTyped dialect [maybe typeWord] ++ [
    .label .name (.part .exportName),
    maybe (seq [word "as", .label .newName (.part .exportName)])])

def exportName : Rule := choice [identifier, .part .string]

def importStatement (dialect : Dialect) : Rule :=
  seq ([word "import"] ++ whenTyped dialect [maybe typeWord] ++ [
    choice ([seq [.part .importClause, .part .fromClause],
      .label .source (.part .string)] ++
      whenTyped dialect [.part .importRequire]),
    maybe (.part .importAttribute),
    semicolon])

def importedAs (dialect : Dialect) : Rule :=
  if dialect.isTyped then .part .importName else identifier

def importName : Rule := choice [identifier, typeAsName]

def importClause (dialect : Dialect) : Rule :=
  let several := parts [.namespaceImport, .namedImports]
  choice [several, seq [importedAs dialect, maybe (seq [mark ",", several])]]

def fromClause : Rule := seq [word "from", .label .source (.part .string)]

def namespaceImport : Rule := seq [mark "*", word "as", identifier]

def namedImports : Rule :=
  braced (seq [maybe (commas (.part .importSpecifier)), maybe (mark ",")])

def importSpecifier (dialect : Dialect) : Rule :=
  seq (whenTyped dialect [maybe typeWord] ++ [
    choice [
      .label .name (importedAs dialect),
      seq [.label .name
        (choice ([.part .exportName] ++ whenTyped dialect [typeAsName])),
        word "as", .label .newName (importedAs dialect)]]])

def importAttribute : Rule := seq [words ["with", "assert"], .part .object]

def importRequire : Rule :=
  seq [identifier, mark "=", word "require",
    enclosed (.label .source (.part .string))]

def importAlias : Rule :=
  seq [word "import", identifier, mark "=",
    choice [identifier, .part .dottedName], semicolon]

end ImportAtlas.Grammar.Rules
