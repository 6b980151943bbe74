import ImportAtlas.CommandLine.Parameter

/-!
# Reading arguments

Arguments are read from left to right. The values of a parameter are checked
when the next parameter begins, so a fault in them can be overtaken by an
unknown argument right after them. After a double dash every argument is a
value without a name.
-/

namespace ImportAtlas.CommandLine

inductive Stop where
  | usage (error : UsageError)
  | help
  | nothingGiven
  | version
  deriving DecidableEq, Repr

structure Reading where
  command : Option Command
  given : List (Parameter × String) := []
  open? : Option (Parameter × List String) := none
  awaiting : Bool := false
  positions : List Parameter := []
  onlyValues : Bool := false
  deriving Repr

namespace Reading

def start (command : Option Command) : Reading :=
  { command := command, positions := command.elim [] Parameter.positional }

def isGiven (reading : Reading) (parameter : Parameter) : Bool :=
  reading.given.any fun entry => entry.1 = parameter

def checkValue (parameter : Parameter) (value : String) : Except Stop Unit :=
  if parameter.takesPath && value.isEmpty then
    .error (.usage (.missingValue parameter))
  else if parameter = .format && (OutputFormat.ofName? value).isNone then
    .error (.usage (.unknownFormat value))
  else .ok ()

def checkValues (parameter : Parameter) : List String → Except Stop Unit
  | [] => .ok ()
  | value :: values =>
    match checkValue parameter value with
    | .error stop => .error stop
    | .ok () => checkValues parameter values

def enter (reading : Reading) (parameter : Parameter) (values : List String) :
    Except Stop Reading :=
  if values.isEmpty then .error (.usage (.missingValue parameter))
  else if !parameter.isRepeatable && reading.isGiven parameter then
    .error (.usage (.repeated parameter))
  else
    match checkValues parameter values with
    | .error stop => .error stop
    | .ok () =>
      .ok { reading with
        given := reading.given ++ values.map fun value => (parameter, value) }

def close (reading : Reading) : Except Stop Reading :=
  match reading.open? with
  | none => .ok { reading with awaiting := false }
  | some (parameter, values) =>
    enter { reading with open? := none, awaiting := false } parameter values

def enterFlag (reading : Reading) (parameter : Parameter) :
    Except Stop Reading :=
  match reading.close with
  | .error stop => .error stop
  | .ok closed =>
    if parameter = .help then .error .help
    else if parameter = .version then .error .version
    else enter closed parameter ["true"]

def beginOption (reading : Reading) (parameter : Parameter)
    (attached : Option String) : Except Stop Reading :=
  match reading.close with
  | .error stop => .error stop
  | .ok closed =>
    match attached with
    | some value => enter closed parameter [value]
    | none =>
      .ok { closed with open? := some (parameter, []), awaiting := true }

def splitAtEquals (text : List Char) : String × Option String :=
  let name := text.takeWhile (· != '=')
  match text.drop name.length with
  | [] => (String.ofList name, none)
  | _ :: value => (String.ofList name, some (String.ofList value))

def readLong (reading : Reading) (text : List Char) : Except Stop Reading :=
  let (name, value) := splitAtEquals text
  match Parameter.withLong? reading.command name with
  | none => .error (.usage (.unexpectedArgument ("--" ++ name)))
  | some parameter =>
    if parameter.isFlag then
      match value with
      | some extra => .error (.usage (.unexpectedValue extra parameter))
      | none => reading.enterFlag parameter
    else reading.beginOption parameter value

/-- The value that stands right after a letter, with or without an equals sign.
-/
def attachedValue : List Char → Option String
  | [] => none
  | '=' :: value => some (String.ofList value)
  | value => some (String.ofList value)

def readShort (reading : Reading) : List Char → Except Stop Reading
  | [] => .ok reading
  | letter :: rest =>
    match Parameter.withShort? reading.command letter with
    | none =>
      .error (.usage (.unexpectedArgument ("-" ++ String.singleton letter)))
    | some parameter =>
      if parameter.isFlag then
        match reading.enterFlag parameter with
        | .error stop => .error stop
        | .ok next => readShort next rest
      else reading.beginOption parameter (attachedValue rest)

def readValue (reading : Reading) (argument : String) : Except Stop Reading :=
  match reading.positions with
  | [] => .error (.usage (.unexpectedArgument argument))
  | parameter :: later =>
    match reading.open? with
    | some (opened, values) =>
      if opened = parameter && parameter.isRepeatable then
        .ok { reading with open? := some (opened, values ++ [argument]) }
      else begin reading parameter later argument
    | none => begin reading parameter later argument
where
  begin (reading : Reading) (parameter : Parameter) (later : List Parameter)
      (argument : String) :
      Except Stop Reading :=
    match reading.close with
    | .error stop => .error stop
    | .ok closed =>
      .ok { closed with
        open? := some (parameter, [argument])
        positions :=
          if parameter.isRepeatable then parameter :: later else later }

def giveAwaited (reading : Reading) (argument : String) : Reading :=
  { reading with
    open? := reading.open?.map fun (parameter, values) =>
      (parameter, values ++ [argument])
    awaiting := false }

def readArgument (reading : Reading) (argument : String) :
    Except Stop Reading :=
  if reading.onlyValues then reading.readValue argument
  else
    match argument.toList with
    | ['-', '-'] => .ok { reading with onlyValues := true, awaiting := false }
    | '-' :: '-' :: text => reading.readLong text
    | '-' :: letter :: rest => reading.readShort (letter :: rest)
    | _ =>
      if reading.awaiting then .ok (reading.giveAwaited argument)
      else reading.readValue argument

def readArguments (reading : Reading) : List String → Except Stop Reading
  | [] => reading.close
  | argument :: arguments =>
    match reading.readArgument argument with
    | .error stop => .error stop
    | .ok next => next.readArguments arguments

end Reading

structure Invocation where
  command : Command
  given : List (Parameter × String)
  deriving Repr

def isCommandName (name : String) : Bool :=
  (Command.ofName? name).isSome || name == "help"

/-- Help on a command can be asked for by name; a command has no commands of
its own. -/
def readHelp : List String → Stop
  | [] => .help
  | name :: names =>
    if isCommandName name then
      match names with
      | [] => .help
      | inner :: _ => .usage (.unknownCommand inner)
    else .usage (.unknownCommand name)

def readCommand (reading : Reading) : List String → Except Stop Invocation
  | [] =>
    match reading.close with
    | .error stop => .error stop
    | .ok closed =>
      if closed.given.isEmpty then .error .nothingGiven
      else .error (.usage .missingCommand)
  | argument :: arguments =>
    if reading.onlyValues then
      if isCommandName argument then
        .error (.usage (.unexpectedArgument argument))
      else .error (.usage (.unknownCommand argument))
    else if argument == "help" then .error (readHelp arguments)
    else
      match Command.ofName? argument with
      | some command =>
        match (Reading.start (some command)).readArguments arguments with
        | .error stop => .error stop
        | .ok read => .ok ⟨command, reading.given ++ read.given⟩
      | none =>
        match argument.toList with
        | ['-', '-'] =>
          readCommand { reading with onlyValues := true } arguments
        | '-' :: '-' :: text => continueWith (reading.readLong text) arguments
        | '-' :: letter :: rest =>
          continueWith (reading.readShort (letter :: rest)) arguments
        | _ => .error (.usage (.unknownCommand argument))
where
  continueWith (step : Except Stop Reading) (arguments : List String) : Except
      Stop Invocation :=
    match step with
    | .error stop => .error stop
    | .ok next => readCommand next arguments

def Invocation.read (arguments : List String) : Except Stop Invocation :=
  readCommand (Reading.start none) arguments

namespace Invocation

def values (invocation : Invocation) (parameter : Parameter) : List String :=
  (invocation.given.filter fun entry => entry.1 = parameter).map Prod.snd

def value? (invocation : Invocation) (parameter : Parameter) : Option String :=
  (invocation.values parameter).head?

def isOn (invocation : Invocation) (parameter : Parameter) : Bool :=
  !(invocation.values parameter).isEmpty

end Invocation

end ImportAtlas.CommandLine
