import Mainline.CommandLine

/-!
# How the command line is used

The texts for those who ask how to use the program, and for those who used it the wrong way.
-/

namespace Mainline.CommandLine

/-- The name and the version of the program. -/
def version : String :=
  "mainline 0.1.0"

/-- The commands and the options. -/
def usage : List String :=
  [ "Usage: mainline [OPTIONS] <COMMAND>",
    "",
    "Commands:",
    "  run    Join the DHT and print what is known of it",
    "  peers  Look up peers for an info hash",
    "  ping   Ping a single node",
    "  help   Print this message",
    "",
    "Options:",
    "  -v, --verbose           Verbosity level (-v, -vv, -vvv)",
    "  -b, --bind <BIND>       Local UDP address [default: " ++ defaultBind.toString ++ "]",
    "      --bootstrap <ADDR>  Extra bootstrap node, tried before the public routers (repeatable)",
    "  -h, --help              Print help",
    "  -V, --version           Print version" ]

namespace UsageError

/-- The wording of each mistake. -/
def message : UsageError → String
  | helpRequested => "help was asked for"
  | versionRequested => "the version was asked for"
  | nothingGiven => "no command was given"
  | missingCommand => "a command is required but none was given"
  | unknownCommand => "unrecognized command"
  | unknownArgument => "unexpected argument"
  | missingArgument => "a required argument was not given"
  | missingValue => "an option needs a value but none was given"
  | unexpectedValue => "an option was given a value it does not take"
  | invalidValue => "a value is not an address"
  | repeatedOption => "an option cannot be used more than once"

/-- Did whoever gave these arguments want to read a text? -/
def isRequest : UsageError → Bool
  | helpRequested | versionRequested => true
  | _ => false

/-- The lines that answer. -/
def lines (e : UsageError) : List String :=
  match e with
  | helpRequested | nothingGiven => usage
  | versionRequested => [version]
  | e => ["error: " ++ e.message, "", "For more information, try '--help'."]

end UsageError

/-- The lines that say what failed and why. -/
def failureLines : List String → List String
  | [] => ["Error"]
  | [statement] => ["Error: " ++ statement]
  | statement :: causes => ["Error: " ++ statement, "", "Caused by:"] ++ causes.map ("    " ++ ·)

end Mainline.CommandLine
