import EventRelay.Text.Split

namespace EventRelay.Cli

/-!
# Arguments

A command line is read from left to right, and the first fault decides.
Flags come first; a flag that takes a value has it attached, or finds it in
the next argument.  After two hyphens every argument is a plain one.
-/

/-- A flag of a program. -/
structure Flag where
  name : String
  letter : Option Char
  takesValue : Bool
  deriving Repr, DecidableEq

namespace Flag

/-- The flag that every program has. -/
def help : Flag :=
  ⟨"help", some 'h', false⟩

end Flag

/-- What is wrong with a command line. -/
inductive ArgumentError where
  /-- Nothing is wrong; an explanation is asked for. -/
  | helpRequested
  | unknown (argument : String)
  | missingValue (flag : String)
  | unneededValue (flag : String)
  /-- The value may not be empty. -/
  | emptyValue (flag : String)
  | repeated (flag : String)
  | unexpected (argument : String)
  | missingCommand
  | unknownCommand (name : String)
  | missingOperand (command : String)
  deriving Repr, DecidableEq

namespace ArgumentError

/-- The exit code that reports the error. -/
def exitCode : ArgumentError → Nat
  | .helpRequested =>
      0
  | _ =>
      2

/-- The text of the error. -/
def message : ArgumentError → String
  | .helpRequested =>
      "no explanation is available"
  | .unknown argument =>
      s!"unknown argument '{argument}'"
  | .missingValue flag =>
      s!"a value is needed for '--{flag}'"
  | .unneededValue flag =>
      s!"no value is needed for '--{flag}'"
  | .emptyValue flag =>
      s!"the value of '--{flag}' is empty"
  | .repeated flag =>
      s!"'--{flag}' is given twice"
  | .unexpected argument =>
      s!"unexpected argument '{argument}'"
  | .missingCommand =>
      "a command is needed"
  | .unknownCommand name =>
      s!"unknown command '{name}'"
  | .missingOperand command =>
      s!"the command '{command}' needs more arguments"

end ArgumentError

/-- How an argument is written. -/
inductive Form where
  | plain
  /-- Two hyphens and nothing else. -/
  | divider
  | long (name : List Char) (value : Option (List Char))
  | short (letter : Char) (attached : List Char)
  deriving Repr, DecidableEq

namespace Form

/-- The form of an argument; a lone hyphen is a plain one. -/
def ofText : List Char → Form
  | ['-', '-'] =>
      .divider
  | '-' :: '-' :: rest =>
      match Text.splitOnce? (· == '=') rest with
      | some (name, value) =>
          .long name (some value)
      | none =>
          .long rest none
  | '-' :: letter :: attached =>
      .short letter attached
  | _ =>
      .plain

/-- The value attached to a letter, with or without an equals sign. -/
def attachedValue (flag : Flag) (attached : List Char) : Option (List Char) :=
  if !flag.takesValue then
    none
  else
    match attached with
    | [] =>
        none
    | '=' :: value =>
        some value
    | value =>
        some value

/-- The flag that an argument names, and the value attached to it. -/
def flag? (flags : List Flag) : Form → Option (Flag × Option (List Char))
  | .plain =>
      none
  | .divider =>
      none
  | .long name value =>
      (flags.find? (·.name.toList == name)).map (·, value)
  | .short letter attached =>
      (flags.find? (·.letter == some letter)).map fun flag =>
        (flag, attachedValue flag attached)

end Form

/-- The form of an argument. -/
def formOf (argument : String) : Form :=
  .ofText argument.toList

/-- The flags that were given, with their values. -/
abbrev Given := List (String × String)

namespace Given

/-- Notes a flag, which may be given only once. -/
def note (given : Given) (flag : Flag) (value : String) :
    Except ArgumentError Given :=
  if (given.lookup flag.name).isSome then
    .error (.repeated flag.name)
  else
    .ok (given ++ [(flag.name, value)])

/-- Notes a flag without a value. -/
def noteBare (given : Given) (flag : Flag) : Except ArgumentError Given :=
  if flag = .help then
    .error .helpRequested
  else
    given.note flag ""

end Given

/-- What was read up to the first plain argument. -/
structure Reading where
  given : Given
  /-- Whether two hyphens were met. -/
  isDivided : Bool
  rest : List String
  deriving Repr, DecidableEq

/-- Reads flags up to the first plain argument. -/
def readFlags (flags : List Flag) (given : Given) :
    List String → Except ArgumentError Reading
  | [] =>
      .ok ⟨given, false, []⟩
  | argument :: rest =>
      match formOf argument with
      | .plain =>
          .ok ⟨given, false, argument :: rest⟩
      | .divider =>
          .ok ⟨given, true, rest⟩
      | form =>
          match form.flag? flags with
          | none =>
              .error (.unknown argument)
          | some (flag, some value) =>
              if flag.takesValue then do
                let given ← given.note flag (String.ofList value)
                readFlags flags given rest
              else
                .error (.unneededValue flag.name)
          | some (flag, none) =>
              if !flag.takesValue then do
                let given ← given.noteBare flag
                readFlags flags given rest
              else
                match rest with
                | [] =>
                    .error (.missingValue flag.name)
                | value :: rest =>
                    if formOf value = .plain then do
                      let given ← given.note flag value
                      readFlags flags given rest
                    else
                      .error (.missingValue flag.name)

/-- Accepts at most a number of arguments, whatever they look like. -/
def takePlain (limit : Nat) (arguments : List String) :
    Except ArgumentError (List String) :=
  match arguments.drop limit with
  | [] =>
      .ok arguments
  | argument :: _ =>
      .error (.unexpected argument)

/--
Reads at most a number of plain arguments, among which no flag but the call
for help may stand.
-/
def readOperands : Nat → List String → Except ArgumentError (List String)
  | _, [] =>
      .ok []
  | limit, argument :: rest =>
      match formOf argument with
      | .plain =>
          match limit with
          | 0 =>
              .error (.unexpected argument)
          | limit + 1 => do
              let operands ← readOperands limit rest
              .ok (argument :: operands)
      | .divider =>
          takePlain limit rest
      | form =>
          match form.flag? [.help] with
          | some (_, none) =>
              .error .helpRequested
          | some (flag, some _) =>
              .error (.unneededValue flag.name)
          | none =>
              .error (.unknown argument)

end EventRelay.Cli
