set_option autoImplicit false

/-! What the arguments of the command line ask for. Arguments are taken from left to right, first
by the program and, after the name of a command, by that command. A value that follows its option
as an argument of its own is looked at only when the next option or operand comes, so a fault in
between is found first. -/

namespace BundleStore.Command

inductive OutputFormat where
  | text
  | json
deriving DecidableEq

/-- Where a repository lies, and what it is tuned by. -/
structure RepositoryOptions where
  root : String
  settings : Option String
  cacheSize : Option String
deriving DecidableEq

inductive Request where
  | path (id : String)
  | display (options : RepositoryOptions) (id : String)
  | check (options : RepositoryOptions) (ids : List String) (recursive repair : Bool)
  | index (options : RepositoryOptions)
deriving DecidableEq

structure Invocation where
  request : Request
  format : OutputFormat
deriving DecidableEq

/-- Why the arguments lead to no command. -/
inductive Refusal where
  | help
  | version
  | noArguments
  | noCommand
  | unknownCommand
  | unknownArgument
  | missingOperand
  | invalidValue
  | unwantedValue
  | repeated
deriving DecidableEq

inductive Verb where
  | path
  | display
  | check
  | index
deriving DecidableEq

def Verb.ofText? : String → Option Verb
  | "path" => some .path
  | "show" => some .display
  | "check" => some .check
  | "index" => some .index
  | _ => none

/-- An option that takes a value. -/
inductive Setting where
  | format
  | root
  | settings
  | cacheSize
deriving DecidableEq

inductive Switch where
  | verbose
  | recursive
  | repair
  | help
  | version
deriving DecidableEq

/-- Who takes an argument: a command, or the program before one is named. -/
abbrev Taker := Option Verb

namespace Taker

def hasRepository : Taker → Bool
  | some .path => false
  | some _ => true
  | none => false

def setting? (taker : Taker) : String → Option Setting
  | "format" => some .format
  | "root" => if taker.hasRepository then some .root else none
  | "config" => if taker.hasRepository then some .settings else none
  | "cache-size" => if taker.hasRepository then some .cacheSize else none
  | _ => none

def longSwitch? (taker : Taker) : String → Option Switch
  | "verbose" => some .verbose
  | "help" => some .help
  | "version" => if taker = none then some .version else none
  | "recursive" => if taker = some Verb.check then some .recursive else none
  | "fix" => if taker = some Verb.check then some .repair else none
  | _ => none

def shortSwitch? (taker : Taker) : Char → Option Switch
  | 'v' => some .verbose
  | 'h' => some .help
  | 'V' => if taker = none then some .version else none
  | 'r' => if taker = some Verb.check then some .recursive else none
  | _ => none

/-- Whether one more operand has a place after so many. -/
def hasPlace (taker : Taker) (count : Nat) : Bool :=
  match taker with
  | some .path => count = 0
  | some .display => count = 0
  | some .check => true
  | some .index => false
  | none => false

end Taker

/-- What has been read so far. -/
structure Reading where
  verbose : Bool
  recursive : Bool
  repair : Bool
  format : Option OutputFormat
  root : Option String
  settings : Option String
  cacheSize : Option String
  operands : List String
  /-- A named option, with the argument after it once that has come. -/
  pending : Option (Setting × Option String)

namespace Reading

def start : Reading :=
  { verbose := false
    recursive := false
    repair := false
    format := none
    root := none
    settings := none
    cacheSize := none
    operands := []
    pending := none }

def isAwaiting (reading : Reading) : Bool :=
  match reading.pending with
  | some (_, none) => true
  | _ => false

/-- An option is given once. -/
def assign (reading : Reading) : Setting → String → Except Refusal Reading
  | .format, value =>
      if reading.format.isSome then .error .repeated
      else if value = "text" then .ok { reading with format := some .text }
      else if value = "json" then .ok { reading with format := some .json }
      else .error .invalidValue
  | .root, value =>
      if reading.root.isSome then .error .repeated
      else if value = "" then .error .invalidValue
      else .ok { reading with root := some value }
  | .settings, value =>
      if reading.settings.isSome then .error .repeated
      else if value = "" then .error .invalidValue
      else .ok { reading with settings := some value }
  | .cacheSize, value =>
      if reading.cacheSize.isSome then .error .repeated
      else .ok { reading with cacheSize := some value }

/-- The option that is still pending takes its value, which must be there by now. -/
def settle (reading : Reading) : Except Refusal Reading :=
  match reading.pending with
  | none => .ok reading
  | some (_, none) => .error .invalidValue
  | some (setting, some value) => { reading with pending := none }.assign setting value

def turnOn (reading : Reading) : Switch → Except Refusal Reading
  | .verbose => if reading.verbose then .error .repeated else .ok { reading with verbose := true }
  | .recursive =>
      if reading.recursive then .error .repeated else .ok { reading with recursive := true }
  | .repair => if reading.repair then .error .repeated else .ok { reading with repair := true }
  | .help => .error .help
  | .version => .error .version

def takeOperand (taker : Taker) (reading : Reading) (operand : String) :
    Except Refusal Reading := do
  if !taker.hasPlace reading.operands.length then .error .unknownArgument
  let reading ← reading.settle
  return { reading with operands := reading.operands ++ [operand] }

/-- An argument after two hyphens. A value may follow an equals sign. -/
def takeLong (taker : Taker) (reading : Reading) (argument : List Char) :
    Except Refusal Reading := do
  let (name, assigned) := argument.span (· ≠ '=')
  match taker.setting? (String.ofList name), assigned with
  | some setting, _ :: value => (← reading.settle).assign setting (String.ofList value)
  | some setting, [] => return { ← reading.settle with pending := some (setting, none) }
  | none, assigned =>
      match taker.longSwitch? (String.ofList name) with
      | none => .error .unknownArgument
      | some switch =>
          if assigned.isEmpty then (← reading.settle).turnOn switch else .error .unwantedValue

/-- Switches of one letter, after a single hyphen. -/
def takeShort (taker : Taker) (reading : Reading) : List Char → Except Refusal Reading
  | [] => .ok reading
  | letter :: rest =>
      match taker.shortSwitch? letter with
      | none => .error .unknownArgument
      | some switch => do (← (← reading.settle).turnOn switch).takeShort taker rest

/-- An argument that is neither the name of a command nor the end of the options. -/
def take (taker : Taker) (reading : Reading) (argument : String) : Except Refusal Reading :=
  match argument.toList with
  | '-' :: '-' :: long => reading.takeLong taker long
  | '-' :: letter :: rest => reading.takeShort taker (letter :: rest)
  | _ =>
      match reading.pending with
      | some (setting, none) => .ok { reading with pending := some (setting, some argument) }
      | _ => reading.takeOperand taker argument

end Reading

def helpName : String := "help"

/-- Takes a command's own arguments. -/
def readOwn (verb : Verb) : Reading → List String → Except Refusal Reading
  | reading, [] => reading.settle
  | reading, argument :: rest =>
      if argument = "--" then do
        let reading ← rest.foldlM (Reading.takeOperand (some verb)) reading
        reading.settle
      else do readOwn verb (← reading.take (some verb) argument) rest

/-- After the end of the options the program itself has no use for an argument. -/
def refuseOperand (argument : String) : Refusal :=
  if (Verb.ofText? argument).isSome ∨ argument = helpName then .unknownArgument
  else .unknownCommand

/-- Help may be asked for on one command. -/
def refuseHelp : List String → Refusal
  | [] => .help
  | [topic] =>
      if (Verb.ofText? topic).isSome ∨ topic = helpName then .help else .unknownCommand
  | _ :: _ :: _ => .unknownCommand

def Reading.options (reading : Reading) : RepositoryOptions :=
  ⟨reading.root.getD ".", reading.settings, reading.cacheSize⟩

def Reading.request (reading : Reading) : Verb → Except Refusal Request
  | .path =>
      match reading.operands with
      | id :: _ => .ok (.path id)
      | [] => .error .missingOperand
  | .display =>
      match reading.operands with
      | id :: _ => .ok (.display reading.options id)
      | [] => .error .missingOperand
  | .check => .ok (.check reading.options reading.operands reading.recursive reading.repair)
  | .index => .ok (.index reading.options)

/-- The format may be given before the command or to it; the latter counts. -/
def finish (reading : Reading) (verb : Verb) (arguments : List String) :
    Except Refusal Invocation := do
  let own ← readOwn verb Reading.start arguments
  let request ← own.request verb
  let reading ← reading.settle
  return ⟨request, (own.format <|> reading.format).getD .text⟩

/-- Takes the program's arguments, up to the name of a command. -/
def readProgram : Reading → List String → Except Refusal Invocation
  | reading, [] => do
      let reading ← reading.settle
      .error (if reading.verbose ∨ reading.format.isSome then .noCommand else .noArguments)
  | reading, argument :: rest =>
      if reading.isAwaiting ∧ argument ≠ "--" then do
        readProgram (← reading.take none argument) rest
      else match Verb.ofText? argument with
        | some verb => finish reading verb rest
        | none =>
            if argument = helpName then .error (refuseHelp rest)
            else if argument = "--" then
              match rest with
              | [] => readProgram reading []
              | operand :: _ => .error (refuseOperand operand)
            else if argument.startsWith "-" ∧ argument ≠ "-" then do
              readProgram (← reading.take none argument) rest
            else .error .unknownCommand

def Invocation.ofArguments (arguments : List String) : Except Refusal Invocation :=
  readProgram Reading.start arguments

end BundleStore.Command
