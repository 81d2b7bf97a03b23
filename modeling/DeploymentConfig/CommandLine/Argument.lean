/-!
# Command-line arguments

A command is a tree of levels (`Level`): each has options that take a value, at
most one positional argument, and subcommands. `Level.read` reads a row of
arguments against it.

The value of an option or of a positional argument is kept pending until it is
known to be complete, that is until the next argument of either kind, the end of
the row or, of a level above, the end of its subcommand. Only then can it be
refused, so of two faults a later one may be reported. A value that is attached
to its option is complete at once.

After `--` every argument is positional.
-/

namespace DeploymentConfig.CommandLine

/-- What ends the reading of arguments. -/
inductive UsageProblem where
  /-- The user asked for help. -/
  | help
  /-- The user asked for the version. -/
  | version
  /-- Nothing was given where a subcommand is needed. -/
  | nothingGiven
  | missingSubcommand
  | unknownSubcommand
  | unknownArgument
  | missingArgument
  | repeatedArgument
  /-- An option without its value, or an empty value where none may be. -/
  | emptyValue
  | refusedValue
  /-- A value for an option that takes none. -/
  | unwantedValue
  deriving DecidableEq

/-- An argument that takes a value. -/
structure Argument where
  name : String
  /-- The letter of the short form, if it is an option. -/
  short : Option Char
  /-- Why a value is refused, if it is. -/
  refuses : String → Option UsageProblem
  /-- Whether a positional argument has to be given. -/
  isRequired : Bool

inductive Level where
  | mk (name : String) (options : List Argument) (hasVersion : Bool) (positional : Option Argument)
    (subcommands : List Level)

namespace Level

def name : Level → String
  | mk name .. => name

def options : Level → List Argument
  | mk _ options .. => options

def hasVersion : Level → Bool
  | mk _ _ hasVersion .. => hasVersion

def positional : Level → Option Argument
  | mk _ _ _ positional _ => positional

def subcommands : Level → List Level
  | mk _ _ _ _ subcommands => subcommands

def hasSubcommands (level : Level) : Bool :=
  !level.subcommands.isEmpty

def helpName : String :=
  "help"

/-- A level whose only use is to be asked for help with the others. -/
def helpLevel : Level :=
  mk helpName [] false none []

/-- The subcommand with a name. A level that has any has one for help. -/
def subcommand? (level : Level) (name : String) : Option Level :=
  if level.hasSubcommands ∧ name = helpName then some helpLevel
  else level.subcommands.find? (·.name = name)

/-- Whether a row of names leads from a level to a subcommand, for help with it. -/
def leadsTo (level : Level) : List String → Bool
  | [] => true
  | name :: names =>
    match level.subcommand? name with
    | some sub => sub.leadsTo names
    | none => false

end Level

/-- The form of an argument. -/
inductive Form where
  | escape
  | long (name : String) (value : Option String)
  | short (letter : Char) (rest : List Char)
  | plain

/-- Splits a long option at its first equals sign. -/
def longForm (cs : List Char) : Form :=
  match cs.span (· ≠ '=') with
  | (name, _ :: value) => .long (.ofList name) (some (.ofList value))
  | (name, []) => .long (.ofList name) none

def formOf (argument : String) : Form :=
  match argument.toList with
  | ['-', '-'] => .escape
  | '-' :: '-' :: cs => longForm cs
  | '-' :: c :: cs => .short c cs
  | _ => .plain

/-- What has been read of the arguments of a level. -/
structure Progress where
  /-- The values of the arguments that are complete, by name. -/
  values : List (String × String)
  /-- An argument that is not known to be complete, with its value if it has come. -/
  pending : Option (Argument × Option String)
  /-- Whether the next argument may be the value of the pending one. -/
  isOpen : Bool
  /-- Whether `--` has been read. -/
  isEscaped : Bool
  /-- Whether the positional argument has been read. -/
  isFilled : Bool

namespace Progress

def start : Progress :=
  ⟨[], none, false, false, false⟩

/-- Takes an argument and its value as complete. -/
def complete (p : Progress) (a : Argument) (value : Option String) :
    Except UsageProblem Progress :=
  match value with
  | none => .error .emptyValue
  | some value =>
    if p.values.any (·.1 = a.name) then .error .repeatedArgument
    else match a.refuses value with
      | some problem => .error problem
      | none => .ok { p with values := p.values ++ [(a.name, value)] }

/-- Takes the pending argument as complete. -/
def settle (p : Progress) : Except UsageProblem Progress :=
  match p.pending with
  | none => .ok p
  | some (a, value) => { p with pending := none, isOpen := false }.complete a value

/-- Begins an option, whose value may be attached to it. -/
def option (p : Progress) (a : Argument) (attached : Option String) :
    Except UsageProblem Progress := do
  let p ← p.settle
  match attached with
  | some value => p.complete a (some value)
  | none => .ok { p with pending := some (a, none), isOpen := true }

/-- Ends the reading with what the user asked for. -/
def ask (p : Progress) (answer : UsageProblem) : Except UsageProblem Progress := do
  let _ ← p.settle
  .error answer

/-- Reads a long option. -/
def long (p : Progress) (level : Level) (name : String) (value : Option String) :
    Except UsageProblem Progress :=
  match level.options.find? (·.name = name) with
  | some a => p.option a value
  | none =>
    if name = "help" ∨ (name = "version" ∧ level.hasVersion) then
      if value.isSome then .error .unwantedValue
      else p.ask (if name = "help" then .help else .version)
    else .error .unknownArgument

/-- The value that is attached to a short option, with or without an equals sign. -/
def attached : List Char → Option String
  | [] => none
  | '=' :: cs => some (.ofList cs)
  | cs => some (.ofList cs)

/-- Reads a short option. -/
def short (p : Progress) (level : Level) (letter : Char) (rest : List Char) :
    Except UsageProblem Progress :=
  match level.options.find? (·.short = some letter) with
  | some a => p.option a (attached rest)
  | none =>
    if letter = 'h' then p.ask .help
    else if letter = 'V' ∧ level.hasVersion then p.ask .version
    else .error .unknownArgument

/-- What is wrong with an argument that has no place. -/
def misplaced (p : Progress) (level : Level) (argument : String) : UsageProblem :=
  if level.hasSubcommands ∧ ¬ (p.isEscaped ∧ (level.subcommand? argument).isSome) then
    .unknownSubcommand
  else .unknownArgument

/-- Reads an argument that is a value, of the pending option or of the level. -/
def plain (p : Progress) (level : Level) (argument : String) : Except UsageProblem Progress :=
  match p.isOpen && !p.isEscaped, p.pending with
  | true, some (a, _) => .ok { p with pending := some (a, some argument), isOpen := false }
  | _, _ =>
    match level.positional with
    | some a =>
      if p.isFilled then .error (p.misplaced level argument)
      else do
        let p ← p.settle
        .ok { p with pending := some (a, some argument), isFilled := true }
    | none => .error (p.misplaced level argument)

/-- The values of a level when its arguments are at an end, without a subcommand. -/
def finish (p : Progress) (level : Level) : Except UsageProblem (List (String × String)) := do
  let p ← p.settle
  if level.hasSubcommands then
    .error (if p.values.isEmpty then .nothingGiven else .missingSubcommand)
  else if level.positional.any fun a => a.isRequired && !p.values.any (·.1 = a.name) then
    .error .missingArgument
  else .ok p.values

end Progress

/-- What has been read: the names of the subcommands, and the values given on any level. -/
structure Reading where
  path : List String
  values : List (String × String)

/-- The value of an argument, if it was given. -/
def Reading.value? (r : Reading) (name : String) : Option String :=
  (r.values.find? (·.1 = name)).map (·.2)

namespace Level

/-- Reads the rest of the arguments of a level. -/
def readFrom (level : Level) (p : Progress) : List String → Except UsageProblem Reading
  | [] => (p.finish level).map fun values => ⟨[], values⟩
  | argument :: rest =>
    if p.isEscaped then do level.readFrom (← p.plain level argument) rest
    else match if p.isOpen then none else level.subcommand? argument with
      | some sub =>
        if argument = helpName then
          .error (if level.leadsTo rest then .help else .unknownSubcommand)
        else do
          let reading ← sub.readFrom .start rest
          let p ← p.settle
          .ok ⟨argument :: reading.path, p.values ++ reading.values⟩
      | none =>
        match formOf argument with
        | .escape => level.readFrom { p with isEscaped := true } rest
        | .long name value => do level.readFrom (← p.long level name value) rest
        | .short letter chars => do level.readFrom (← p.short level letter chars) rest
        | .plain => do level.readFrom (← p.plain level argument) rest

def read (level : Level) (arguments : List String) : Except UsageProblem Reading :=
  level.readFrom .start arguments

end Level

end DeploymentConfig.CommandLine
