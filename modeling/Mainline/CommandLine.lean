import Mainline.Address.Text
import Mainline.Key
import Mainline.Text.Quoted
import Mainline.Text.Utf8

/-!
# The command line

`[-v]... [--bind ADDRESS] [--bootstrap ADDRESS]... COMMAND`, where the command is `run`,
`peers INFO_HASH`, `ping ADDRESS` or `help`. Options come before the command. A value follows its
option as the next argument, behind an equals sign or, for a one-letter option, attached to it;
letters without values may share one dash. After `--` everything is a value.

An option's value is examined no sooner than the next option is recognised, so of two mistakes the
one that is found first need not be the one that stands first: what a command says is read before
the last option in front of it is examined.
-/

namespace Mainline.CommandLine

/-- Why the arguments are not understood, or what they ask for instead of a command. -/
inductive UsageError where
  /-- Help was asked for. -/
  | helpRequested
  /-- The version was asked for. -/
  | versionRequested
  /-- There are no arguments at all. -/
  | nothingGiven
  /-- There are options but no command. -/
  | missingCommand
  | unknownCommand
  | unknownArgument
  /-- The command lacks its argument. -/
  | missingArgument
  /-- An option that needs a value stands without one. -/
  | missingValue
  /-- A value is attached to an option that takes none. -/
  | unexpectedValue
  /-- A value is not an address. -/
  | invalidValue
  /-- An option that may stand once is repeated. -/
  | repeatedOption
deriving DecidableEq, Repr

/-- What a node is to do. -/
inductive Command where
  /-- Join the network and stay. -/
  | run
  /-- Look up the peers of a torrent; what is given need not be an info hash yet. -/
  | peers (infoHash : String)
  /-- Ask one node for its id. -/
  | ping (address : Address)
deriving DecidableEq, Repr

/-- What the options say. -/
structure Options where
  /-- How often `-v` was given, at most 255. -/
  verbosity : Nat := 0
  bind : Option Address := none
  bootstrap : List Address := []
deriving DecidableEq, Repr

/-- The address that is listened on where no option says otherwise. -/
def defaultBind : Address := .v4 ⟨0, 0, 0, 0⟩ 6881

/-- A command line that is understood. -/
structure Invocation where
  options : Options
  command : Command
deriving DecidableEq, Repr

/-! ### Arguments as they are written -/

/-- How an argument is written. -/
inductive Shape where
  /-- Two dashes and nothing else. -/
  | separator
  /-- Two dashes and a name, perhaps with a value behind an equals sign. -/
  | long (name : String) (value : Option String)
  /-- One dash and at least one letter. -/
  | short (letters : List Char)
  /-- Anything else. -/
  | word

/-- What stands before and behind the first equals sign. -/
def splitAtEquals (s : List Char) : String × Option String :=
  let name := s.takeWhile (· ≠ '=')
  match s.dropWhile (· ≠ '=') with
  | [] => (String.ofList name, none)
  | _ :: value => (String.ofList name, some (String.ofList value))

/-- How an argument is written. -/
def shape (arg : String) : Shape :=
  match arg.toList with
  | ['-', '-'] => .separator
  | '-' :: '-' :: s => let (name, value) := splitAtEquals s; .long name value
  | '-' :: c :: s => .short (c :: s)
  | _ => .word

/-! ### Options -/

/-- The options that have a value. -/
inductive Valued where
  | bind
  | bootstrap
deriving DecidableEq, Repr

/-- The options seen so far. The last one with a value may wait for it, or for its
examination. -/
structure Progress where
  options : Options := {}
  /-- Has any option been completed? -/
  any : Bool := false
  pending : Option (Valued × Option String) := none

namespace Progress

/-- Examines the value of an option. -/
def examine (p : Progress) (option : Valued) (value : String) : Except UsageError Progress :=
  match option with
  | .bind =>
    if p.options.bind.isSome then .error .repeatedOption
    else
      match Address.ofString? value with
      | none => .error .invalidValue
      | some address =>
        .ok { p with options := { p.options with bind := some address }, any := true }
  | .bootstrap =>
    match Address.ofString? value with
    | none => .error .invalidValue
    | some address =>
      .ok { p with
        options := { p.options with bootstrap := p.options.bootstrap ++ [address] }, any := true }

/-- Completes the option that is still pending. -/
def settle (p : Progress) : Except UsageError Progress :=
  match p.pending with
  | none => .ok p
  | some (_, none) => .error .missingValue
  | some (option, some value) => { p with pending := none }.examine option value

/-- Does an option wait for its value? -/
def awaitsValue (p : Progress) : Option Valued :=
  match p.pending with
  | some (option, none) => some option
  | _ => none

/-- Counts one more `-v`. -/
def moreVerbose (p : Progress) : Except UsageError Progress := do
  let p ← p.settle
  return { p with
    options := { p.options with verbosity := min 255 (p.options.verbosity + 1) }, any := true }

/-- An option with a value that is attached to it, or that has yet to come. -/
def valued (p : Progress) (option : Valued) (value : Option String) :
    Except UsageError Progress := do
  let p ← p.settle
  match value with
  | some value => p.examine option value
  | none => return { p with pending := some (option, none) }

/-- What stops the reading of options: help or version, once what is pending has been
examined. -/
def stopWith {α : Type} (p : Progress) (e : UsageError) : Except UsageError α := do
  let _ ← p.settle
  throw e

/-- An option with a long name. -/
def long (p : Progress) (name : String) (value : Option String) : Except UsageError Progress :=
  if name = "bind" then p.valued .bind value
  else if name = "bootstrap" then p.valued .bootstrap value
  else if name = "verbose" ∨ name = "help" ∨ name = "version" then
    if value.isSome then .error .unexpectedValue
    else if name = "verbose" then p.moreVerbose
    else if name = "help" then p.stopWith .helpRequested
    else p.stopWith .versionRequested
  else .error .unknownArgument

/-- The value attached to a letter: what follows it, less one equals sign. -/
def attached : List Char → Option String
  | [] => none
  | '=' :: s => some (String.ofList s)
  | s => some (String.ofList s)

/-- Letters behind one dash. -/
def short (p : Progress) : List Char → Except UsageError Progress
  | [] => .ok p
  | 'v' :: s => do (← p.moreVerbose).short s
  | 'b' :: s => p.valued .bind (attached s)
  | 'h' :: _ => p.stopWith .helpRequested
  | 'V' :: _ => p.stopWith .versionRequested
  | _ => .error .unknownArgument

end Progress

/-! ### Commands -/

/-- The commands by name. -/
inductive CommandName where
  | run
  | peers
  | ping
  | help
deriving DecidableEq, Repr

def CommandName.ofString? (name : String) : Option CommandName :=
  if name = "run" then some run
  else if name = "peers" then some peers
  else if name = "ping" then some ping
  else if name = "help" then some help
  else none

/-- The command with the argument it was given. -/
def complete (name : CommandName) (argument : Option String) : Except UsageError Command :=
  match name, argument with
  | .run, _ => .ok .run
  | .help, _ => .error .helpRequested
  | .peers, some infoHash => .ok (.peers infoHash)
  | .ping, some address =>
    match Address.ofString? address with
    | some address => .ok (.ping address)
    | none => .error .invalidValue
  | _, none => .error .missingArgument

/-- Is there a value at fault in what a command has been given so far? -/
def examineArgument (name : CommandName) (argument : Option String) : Except UsageError Unit :=
  match argument with
  | none => .ok ()
  | some _ => do let _ ← complete name argument

/-- Reads what follows the name of a command. -/
def readCommand (name : CommandName) (valuesOnly : Bool) (argument : Option String) :
    List String → Except UsageError Command
  | [] => complete name argument
  | arg :: args =>
    let asValue :=
      if name = .run ∨ argument.isSome then .error .unknownArgument
      else readCommand name valuesOnly (some arg) args
    if valuesOnly then asValue
    else
      match shape arg with
      | .separator => readCommand name true argument args
      | .long "help" none => do
        examineArgument name argument
        throw .helpRequested
      | .long "help" (some _) => .error .unexpectedValue
      | .short ('h' :: _) => do
        examineArgument name argument
        throw .helpRequested
      | .long .. => .error .unknownArgument
      | .short _ => .error .unknownArgument
      | .word => asValue

/-- Reads what follows `help`: the name of a command at most. -/
def readHelp (args : List String) : UsageError :=
  match args with
  | [] => .helpRequested
  | [name] => if (CommandName.ofString? name).isSome then .helpRequested else .unknownCommand
  | _ => .unknownCommand

/-! ### The whole command line -/

/-- Reads arguments from the options on. -/
def read (p : Progress) : List String → Except UsageError Invocation
  | [] => do
    let p ← p.settle
    throw (if p.any then .missingCommand else .nothingGiven)
  | arg :: args =>
    match p.awaitsValue, CommandName.ofString? arg with
    | none, some .help => .error (readHelp args)
    | none, some name => do
      let command ← readCommand name false none args
      let p ← p.settle
      return ⟨p.options, command⟩
    | awaiting, _ =>
      match shape arg, awaiting with
      | .separator, _ =>
        match args with
        | [] => do
          let p ← p.settle
          throw (if p.any then .missingCommand else .nothingGiven)
        | value :: _ =>
          .error (if (CommandName.ofString? value).isSome then .unknownArgument
            else .unknownCommand)
      | .long name value, _ =>
        match p.long name value with
        | .ok p => read p args
        | .error e => .error e
      | .short letters, _ =>
        match p.short letters with
        | .ok p => read p args
        | .error e => .error e
      | .word, some option => read { p with pending := some (option, some arg) } args
      | .word, none => .error .unknownCommand

/-- What a list of arguments asks for. -/
def parse (args : List String) : Except UsageError Invocation :=
  read {} args

/-! ### The info hash of a command -/

/-- Why a text is no info hash. -/
inductive InfoHashError where
  | notHex (cause : Hex.Error)
  /-- The text stands for this many octets. -/
  | wrongLength (length : Nat)
deriving DecidableEq, Repr

/-- The wording of a fault and of its cause, the most general statement first. -/
def InfoHashError.messages : InfoHashError → List String
  | notHex cause =>
    ["info hash is not valid hex",
      match cause with
      | .oddLength => "Odd number of digits"
      | .invalidDigit octet index =>
        "Invalid character " ++ Quoted.ofChar (Char.ofNat octet.toNat) ++ " at position " ++
          toString index]
  | wrongLength length => ["info hash must be 20 bytes, got " ++ toString length]

/-- The info hash that a text of hexadecimal digits spells. -/
def infoHash (text : String) : Except InfoHashError Key :=
  match Hex.toBytes (Utf8.encode text) with
  | .error cause => .error (.notHex cause)
  | .ok s =>
    match Key.ofBytes? s with
    | some key => .ok key
    | none => .error (.wrongLength s.length)

end Mainline.CommandLine
