import CallFlow.Text.Digit

/-!
# Command-Line Arguments

An argument that begins with a minus sign names an option, in full or by a beginning that no
other option shares; a value follows the name, or an equals sign after the name. The first
request for help counts, if nothing before it is wrong; the same holds for whatever is wrong.

## Sections

1. Options
2. Single arguments
3. All arguments
-/

namespace CallFlow.CommandLine

/-! ## §1 Options -/

/-- The options of the command line. -/
inductive Switch where
  | help
  | flowJson
  | flowFile
  | outputFile
  | strict
  | logLevel
  deriving DecidableEq, Repr

/-- The names of the options. -/
def switchNames : List (String × Switch) :=
  [("-h", .help), ("--help", .help), ("--flow-json", .flowJson), ("--flow-file", .flowFile),
    ("--output-file", .outputFile), ("--strict", .strict), ("--log-level", .logLevel)]

/-- Whether an option has a value. -/
def Switch.takesValue : Switch → Bool
  | help | strict => false
  | _ => true

/-- What the command line asks for. -/
structure Order where
  flowJson : Option String := none
  flowFile : Option String := none
  outputFile : Option String := none
  strict : Bool := false
  logLevel : Option String := none
  deriving DecidableEq, Repr

/-- An order with one more option. -/
def Order.add (o : Order) (switch : Switch) (value : String) : Order :=
  match switch with
  | .help => o
  | .flowJson => { o with flowJson := some value }
  | .flowFile => { o with flowFile := some value }
  | .outputFile => { o with outputFile := some value }
  | .strict => { o with strict := true }
  | .logLevel => { o with logLevel := some value }

/-! ## §2 Single arguments -/

/-- What an argument is, taken by itself. -/
inductive Argument where
  /-- No option: a value, or something that does not belong there. -/
  | plain (text : String)
  /-- The mark after which there are no options. -/
  | endOfOptions
  /-- An option by its full name, perhaps with a value in the same argument. -/
  | option (name : String) (switch : Switch) (value : Option String)
  /-- Looks like an option but is none. -/
  | unknownOption
  /-- Begins more than one option. -/
  | ambiguous
  deriving DecidableEq, Repr

/-- The part before the first equals sign, and the text after it. -/
def splitEquals (cs : List Char) : List Char × Option String :=
  match cs.dropWhile (· ≠ '=') with
  | [] => (cs, none)
  | _ :: text => (cs.takeWhile (· ≠ '='), some (String.ofList text))

/-- Whether characters are digits, at least one, perhaps with a line break at their end. -/
def isDigitLine (cs : List Char) : Bool :=
  match cs.span fun c => (Text.digitValue? c).isSome with
  | (digits, rest) => !digits.isEmpty && (rest.isEmpty || rest = ['\n'])

/-- Whether the characters are those of a negative number. -/
def isNegativeNumber : List Char → Bool
  | '-' :: number =>
    isDigitLine number ||
      match number.dropWhile fun c => (Text.digitValue? c).isSome with
      | '.' :: fraction => isDigitLine fraction
      | _ => false
  | _ => false

/-- The option of a name. -/
def findSwitch? (name : List Char) : Option Switch :=
  (switchNames.find? fun e => e.1.toList = name).map Prod.snd

/-- The options that an argument may name. After two minus signs any beginning of a name will do;
after one, the next letter is the name and the rest is glued to it. -/
def candidates (cs : List Char) : List Argument :=
  match cs with
  | '-' :: '-' :: _ =>
    let (start, value) := splitEquals cs
    (switchNames.filter fun e => start.isPrefixOf e.1.toList).map fun e => .option e.1 e.2 value
  | _ =>
    (switchNames.filter fun e => e.1.toList = cs.take 2).map fun e =>
      .option e.1 e.2 (some (String.ofList (cs.drop 2)))

/-- An argument that begins with a minus sign and is no name in full. -/
def classifyPartial (cs : List Char) : Argument :=
  match candidates cs with
  | [a] => a
  | _ :: _ :: _ => .ambiguous
  | [] =>
    if isNegativeNumber cs || cs.contains ' ' then .plain (String.ofList cs) else .unknownOption

/-- What an argument is, taken by itself. -/
def classify (argument : String) : Argument :=
  let cs := argument.toList
  if argument = "--" then .endOfOptions
  else if cs.head? ≠ some '-' || cs.length = 1 then .plain argument
  else
    let (name, value) := splitEquals cs
    -- A full name goes before all beginnings of names, so it is never ambiguous.
    match findSwitch? name with
    | some switch => .option (String.ofList name) switch value
    | none => classifyPartial cs

/-- Classifies arguments up to the end of the options; what follows is plain. -/
def classifyAll : List String → List Argument
  | [] => []
  | argument :: rest =>
    match classify argument with
    | .endOfOptions => .endOfOptions :: rest.map .plain
    | a => a :: classifyAll rest

/-! ## §3 All arguments -/

/-- The outcome of reading the arguments. -/
inductive Reading where
  | order (o : Order)
  | help
  | refused
  deriving DecidableEq, Repr

/-- Whether a value asks for help once more: after the one letter of an option, further letters
are options as well, and no other has just one. -/
def repeatsHelp (name value : String) : Bool :=
  name = "-h" && !value.isEmpty && value.toList.all (· = 'h')

/-- The value that an option gets from its own argument. The mark for the end of the options is
no value, so nothing is left of it. -/
def ownValue (value : String) : String := if value = "--" then "" else value

/-- Reads classified arguments in order. An argument that does not belong there is refused at
the end, after all others have been read. -/
def readArguments (o : Order) (misplaced : Bool) : List Argument → Reading
  | [] => if misplaced then .refused else .order o
  | .plain _ :: rest => readArguments o true rest
  | .endOfOptions :: rest => readArguments o true rest
  | .unknownOption :: rest => readArguments o true rest
  | .ambiguous :: _ => .refused
  | .option name switch (some value) :: rest =>
    if switch.takesValue then readArguments (o.add switch (ownValue value)) misplaced rest
    else if repeatsHelp name value then .help
    else .refused
  | .option _ switch none :: rest =>
    if switch.takesValue then
      match rest with
      | .plain value :: rest => readArguments (o.add switch value) misplaced rest
      | _ => .refused
    else if switch = .help then .help
    else readArguments (o.add switch "") misplaced rest

/-- Reads the arguments of the command line. -/
def read (arguments : List String) : Reading :=
  let classified := classifyAll arguments
  -- An ambiguous beginning is found before any option is acted upon, even one for help.
  if classified.contains .ambiguous then .refused else readArguments {} false classified

end CallFlow.CommandLine
