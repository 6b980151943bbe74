import ImportAtlas.Module.Record
import ImportAtlas.Output.Format

/-!
# Commands and their parameters

The commands of the program, what each of them can be given, and what a user
can get wrong.
-/

namespace ImportAtlas.CommandLine

def programName : String := "importscope"

def versionText : String := programName ++ " 0.1.0"

inductive Command where
  | find
  | list
  | report
  | unused
  | map
  deriving DecidableEq, Repr

def Command.ofName? : String → Option Command
  | "find" => some .find
  | "list" => some .list
  | "report" => some .report
  | "unused" => some .unused
  | "map" => some .map
  | _ => none

inductive Parameter where
  | help
  | version
  | verbose
  | module
  | paths
  | moduleName
  | filter
  | path
  | modulePath
  | baseUrl
  | manifest
  | includes
  | excludes
  | format
  | output
  | hide (style : ImportStyle)
  deriving DecidableEq, Repr

namespace Parameter

def positional : Command → List Parameter
  | .find => [.module, .paths]
  | _ => [.paths]

def common : List Parameter :=
  [.help, .verbose, .path, .modulePath, .baseUrl, .manifest, .includes,
    .excludes, .format, .output] ++
    ImportStyle.all.map hide

/-- The named parameters of a command; before a command there are few. -/
def named : Option Command → List Parameter
  | none => [.help, .version, .verbose]
  | some .report => .moduleName :: common
  | some .unused => .filter :: common
  | some _ => common

def long : Parameter → String
  | help => "help"
  | version => "version"
  | verbose => "verbose"
  | module => ""
  | paths => ""
  | moduleName => "module"
  | filter => "filter"
  | path => "path"
  | modulePath => "module-path"
  | baseUrl => "base-url"
  | manifest => "tsconfig"
  | includes => "include"
  | excludes => "exclude"
  | format => "format"
  | output => "output"
  | hide style => "no-" ++ style.text

def short? : Parameter → Option Char
  | help => some 'h'
  | version => some 'V'
  | verbose => some 'v'
  | path => some 'p'
  | modulePath => some 'm'
  | format => some 'f'
  | output => some 'o'
  | _ => none

def isFlag : Parameter → Bool
  | help | version | verbose | hide _ => true
  | _ => false

def isRepeatable : Parameter → Bool
  | paths | path | includes | excludes => true
  | _ => false

/-- Whether the value of a parameter is a path, which is never empty. -/
def takesPath : Parameter → Bool
  | paths | path | modulePath | baseUrl | manifest | output => true
  | _ => false

def shown : Parameter → String
  | module => "[MODULE]"
  | paths => "[PATHS]..."
  | moduleName => "--module <MODULE>"
  | filter => "--filter <FILTER>"
  | path => "--path <PATH>"
  | modulePath => "--module-path <MODULE_PATH>"
  | baseUrl => "--base-url <BASE_URL>"
  | manifest => "--tsconfig <TSCONFIG>"
  | includes => "--include <INCLUDE>"
  | excludes => "--exclude <EXCLUDE>"
  | format => "--format <FORMAT>"
  | output => "--output <OUTPUT>"
  | other => "--" ++ other.long

def withLong? (command : Option Command) (name : String) : Option Parameter :=
  (named command).find? fun parameter => parameter.long == name

def withShort? (command : Option Command) (letter : Char) : Option Parameter :=
  (named command).find? fun parameter => parameter.short? == some letter

end Parameter

inductive UsageError where
  | unexpectedArgument (argument : String)
  | unknownCommand (name : String)
  | missingCommand
  | missingValue (parameter : Parameter)
  | unexpectedValue (value : String) (parameter : Parameter)
  | repeated (parameter : Parameter)
  | unknownFormat (name : String)
  deriving DecidableEq, Repr

def UsageError.message : UsageError → String
  | .unexpectedArgument argument =>
    "unexpected argument '" ++ argument ++ "' found"
  | .unknownCommand name => "unrecognized subcommand '" ++ name ++ "'"
  | .missingCommand =>
    "'" ++ programName ++ "' requires a subcommand but one was not provided"
  | .missingValue parameter =>
    "a value is required for '" ++ parameter.shown ++ "' but none was supplied"
  | .unexpectedValue value parameter =>
    "unexpected value '" ++ value ++ "' for '" ++ parameter.shown ++
      "' found; no more were expected"
  | .repeated parameter =>
    "the argument '" ++ parameter.shown ++ "' cannot be used multiple times"
  | .unknownFormat name =>
    "invalid value '" ++ name ++ "' for '" ++ Parameter.format.shown ++ "': " ++
      OutputFormat.unknownMessage name

end ImportAtlas.CommandLine
