import Concordance.Posting.Basic

/-!
# Command lines

There are two commands: `build` makes a corpus of the works of a manifest and stores it, `inspect`
audits a stored corpus.

```text
build (-m | --manifest) PATH (-o | --output) DIRECTORY [--dense-ratio NUMBER]
inspect DIRECTORY
help [build | inspect | help]
```

In place of a command, `-h` and `--help` ask for a description as `help` does, `-V` and `--version`
for the version; each command takes `-h` and `--help` as well.

An option takes the next argument as its value, or the rest of its own argument: `--output=out`,
`-o=out` and `-oout` mean the same. An option may be given once. An argument that starts with a
dash is never the value of an option before it, except for a dash alone. Behind `--` no argument
is an option.

- `Command.parse`: the request that a command line makes.
-/

namespace Concordance

/-- What is to be done. -/
inductive Command where
  /-- Builds a corpus and stores it. -/
  | build (manifest output : String) (ratio : UInt32)
  /-- Audits a stored corpus. -/
  | inspect (directory : String)
  deriving DecidableEq, Repr

/-- What a command line asks for. -/
inductive Request where
  /-- A command. -/
  | run (command : Command)
  /-- A description of the command line. -/
  | help
  /-- The name and the version of the program. -/
  | version
  deriving DecidableEq, Repr

/-- Why a text is no ratio. -/
inductive RatioProblem where
  /-- It is empty. -/
  | empty
  /-- It has other characters than digits, or nothing behind its sign. -/
  | notDigits
  /-- It is below zero or has no place in 32 bits. -/
  | outOfRange
  deriving DecidableEq, Repr

/-- The wording of what is wrong with a ratio. -/
def RatioProblem.message : RatioProblem → String
  | .empty => "cannot parse integer from empty string"
  | .notDigits => "invalid digit found in string"
  | .outOfRange => "not in 0..=4294967295"

/-- A command line that makes no request. -/
inductive UsageError where
  /-- No command. -/
  | noCommand
  /-- A command that there is not. -/
  | unknownCommand (name : String)
  /-- An argument that has no place. -/
  | unexpected (argument : String)
  /-- An option without its value. -/
  | noValue (option : String)
  /-- A value that an option does not take. -/
  | badValue (option value : String) (problem : RatioProblem)
  /-- An option that is given twice. -/
  | repeated (option : String)
  /-- An option or a value that has to be given. -/
  | missing (name : String)
  deriving DecidableEq, Repr

/-- The wording of a refused command line. -/
def UsageError.message : UsageError → String
  | .noCommand => "a command is required"
  | .unknownCommand name => "unrecognized subcommand '" ++ name ++ "'"
  | .unexpected argument => "unexpected argument '" ++ argument ++ "' found"
  | .noValue option => "a value is required for '" ++ option ++ "' but none was supplied"
  | .badValue option value problem =>
    "invalid value '" ++ value ++ "' for '" ++ option ++ "': " ++ problem.message
  | .repeated option => "the argument '" ++ option ++ "' cannot be used multiple times"
  | .missing name => "the argument '" ++ name ++ "' was not provided"

namespace Command

/-- An option of the `build` command. -/
inductive BuildOption where
  | manifest
  | output
  | denseRatio
  deriving DecidableEq, Repr

/-- The long name of an option. -/
def BuildOption.name : BuildOption → String
  | .manifest => "--manifest"
  | .output => "--output"
  | .denseRatio => "--dense-ratio"

/-- An option with the kind of its value. -/
def BuildOption.form : BuildOption → String
  | .manifest => "--manifest <MANIFEST>"
  | .output => "--output <OUTPUT>"
  | .denseRatio => "--dense-ratio <DENSE_RATIO>"

/-- All options of the `build` command. -/
def BuildOption.all : List BuildOption := [.manifest, .output, .denseRatio]

/-- The options of the `build` command that have been given. -/
structure BuildOptions where
  manifest : Option String := none
  output : Option String := none
  ratio : Option UInt32 := none

/-- A whole number in decimal digits with or without a sign, from 0 to the greatest 32-bit
number. -/
def ratioOfText (text : String) : Except RatioProblem UInt32 :=
  let (negative, digits) := match text.toList with
    | '-' :: digits => (true, digits)
    | '+' :: digits => (false, digits)
    | digits => (false, digits)
  if text.isEmpty then .error .empty
  else if digits.isEmpty ∨ ¬ digits.all Char.isDigit then .error .notDigits
  else
    let value := digits.foldl (fun value digit => 10 * value + (digit.toNat - '0'.toNat)) 0
    if value < UInt32.size ∧ (negative → value = 0) then .ok (UInt32.ofNat value)
    else .error .outOfRange

/-- Takes the value of an option. -/
def BuildOptions.set (options : BuildOptions) (option : BuildOption) (value : String) :
    Except UsageError BuildOptions :=
  match option with
  | .manifest =>
    if options.manifest.isSome then .error (.repeated option.form)
    else .ok { options with manifest := some value }
  | .output =>
    if options.output.isSome then .error (.repeated option.form)
    else .ok { options with output := some value }
  | .denseRatio =>
    if options.ratio.isSome then .error (.repeated option.form)
    else
      match ratioOfText value with
      | .ok ratio => .ok { options with ratio := some ratio }
      | .error problem => .error (.badValue option.form value problem)

/-- Whether an argument is never taken as the value of an option before it. -/
def isDashed (argument : String) : Bool := argument.startsWith "-" && argument != "-"

/-- An argument that has no place, as it is told: an option by its name alone, letters behind one
dash by the first of them. -/
def told (argument : String) : String :=
  match argument.toList with
  | '-' :: '-' :: name => String.ofList ('-' :: '-' :: name.takeWhile (· ≠ '='))
  | '-' :: letter :: _ => String.ofList ['-', letter]
  | _ => argument

/-- How an argument names an option. -/
inductive Named where
  /-- The value comes in the next argument. -/
  | alone (option : BuildOption)
  /-- The value comes in the same argument. -/
  | withValue (option : BuildOption) (value : String)
  /-- A description is asked for. -/
  | help
  /-- No option. -/
  | none
  deriving DecidableEq, Repr

/-- The option of a letter and what follows it in its argument. -/
def namedByLetter (option : BuildOption) : List Char → Named
  | [] => .alone option
  | '=' :: value => .withValue option (String.ofList value)
  | value => .withValue option (String.ofList value)

/-- The option of a long name and what follows it in its argument. -/
def namedByWord (chars : List Char) : Named :=
  let name := String.ofList (chars.takeWhile (· ≠ '='))
  match BuildOption.all.find? (·.name == name), chars.dropWhile (· ≠ '=') with
  | some option, [] => .alone option
  | some option, _ :: value => .withValue option (String.ofList value)
  | none, [] => if name = "--help" then .help else .none
  | none, _ => .none

/-- The option that an argument names. -/
def named (argument : String) : Named :=
  match argument.toList with
  | '-' :: 'm' :: rest => namedByLetter .manifest rest
  | '-' :: 'o' :: rest => namedByLetter .output rest
  | '-' :: 'h' :: _ => .help
  | '-' :: '-' :: rest => namedByWord ('-' :: '-' :: rest)
  | _ => .none

/-- The `build` command of the options that have been given. -/
def BuildOptions.command (options : BuildOptions) : Except UsageError Request :=
  match options.manifest, options.output with
  | none, _ => .error (.missing "--manifest")
  | _, none => .error (.missing "--output")
  | some manifest, some output =>
    .ok (.run (.build manifest output (options.ratio.getD Posting.defaultRatio)))

/-- The `build` command of its arguments. -/
def parseBuild (options : BuildOptions) : List String → Except UsageError Request
  | [] => options.command
  | ["--"] => options.command
  | argument :: rest =>
    match named argument with
    | .help => .ok .help
    | .none => .error (.unexpected (told argument))
    | .withValue option value => do parseBuild (← options.set option value) rest
    | .alone option =>
      match rest with
      | [] => .error (.noValue option.form)
      | value :: rest =>
        if isDashed value then .error (.noValue option.form)
        else do parseBuild (← options.set option value) rest

/-- The `inspect` command of its arguments. `directory` is what has been given before them. -/
def parseInspect (directory : Option String) (escaped : Bool) :
    List String → Except UsageError Request
  | [] => match directory with
    | none => .error (.missing "DIRECTORY")
    | some directory => .ok (.run (.inspect directory))
  | argument :: rest =>
    if !escaped && argument == "--" then parseInspect directory true rest
    else if !escaped && (argument == "--help" || argument.startsWith "-h") then .ok .help
    else if !escaped && isDashed argument then .error (.unexpected (told argument))
    else if directory.isSome then .error (.unexpected argument)
    else parseInspect (some argument) escaped rest

/-- What a first argument that is no command asks for. Of letters behind one dash the first one
counts. -/
def parseGlobal (argument : String) : Except UsageError Request :=
  if argument = "--help" ∨ argument.startsWith "-h" then .ok .help
  else if argument = "--version" ∨ argument.startsWith "-V" then .ok .version
  else if isDashed argument then .error (.unexpected (told argument))
  else .error (.unknownCommand argument)

/-- What is asked for behind the word `help`: a description, by the name of a command. -/
def parseHelp : List String → Except UsageError Request
  | [] => .ok .help
  | [name] =>
    if name ∈ ["build", "inspect", "help"] then .ok .help else .error (.unknownCommand name)
  | name :: next :: _ =>
    .error (.unknownCommand (if name ∈ ["build", "inspect", "help"] then next else name))

/-- The request that a command line makes. -/
def parse : List String → Except UsageError Request
  | [] => .error .noCommand
  | ["--"] => .error .noCommand
  | "build" :: rest => parseBuild {} rest
  | "inspect" :: rest => parseInspect none false rest
  | "help" :: rest => parseHelp rest
  | "--" :: argument :: _ => .error (.unknownCommand argument)
  | argument :: _ => parseGlobal argument

end Command

end Concordance
