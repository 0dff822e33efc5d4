import ResolverRace.CommandLine.Line
import ResolverRace.Text.Number

/-!
# Commands

The commands of the program, and how they are written.

* `Invocation.parse` — the command of a line.
-/

namespace ResolverRace
namespace CommandLine

/-- Settings that a line overrides; times are in milliseconds. -/
structure Overrides where
  concurrency : Option Nat
  probeTimeout : Option Nat
  sessionTimeout : Option Nat
  deriving DecidableEq, Repr

/-- What is done with the user's lists. -/
inductive ListAction where
  | show
  | create (id : String) (name : Option String) (entries : List String)
  | delete (id : String)
  | add (id entry : String)
  | remove (id entry : String)
  deriving DecidableEq, Repr

inductive Command where
  /-- Finds a resolver that works. -/
  | select (overrides : Overrides) (source : Option String)
  /-- Shows the order in which resolvers are tried. -/
  | list (source : Option String)
  /-- Tells whether a resolver carried the tunnel. -/
  | report (address : String) (worked : Bool)
  | lists (action : ListAction)
  /-- Writes a settings file to start from. -/
  | genConfig (output : String)
  deriving DecidableEq, Repr

structure Invocation where
  /-- The settings file. -/
  config : String
  logLevel : Option String
  command : Command
  deriving DecidableEq, Repr

/-- The settings file that is used, and written, if the line names none. -/
def defaultConfig : String := "dnspick.toml"

/-- The largest number that a line can give. -/
def maxNumber : Nat := UInt64.size - 1

def number? (text : String) : Option Nat := (Text.parseDecimal maxNumber text.toList).toOption

def isNumber (text : String) : Bool := (number? text).isSome

/-- A path has at least one character. -/
def isPath (text : String) : Bool := text ≠ ""

def helpFlag : Flag := ⟨"help", some 'h', .stop .help⟩

/-- An option with a text as value. -/
def textFlag (name : String) (letter : Option Char) : Flag := ⟨name, letter, .value fun _ => true⟩

def pathFlag (name : String) (letter : Char) : Flag := ⟨name, some letter, .value isPath⟩

def numberFlag (name : String) : Flag := ⟨name, none, .value isNumber⟩

/-- The grammar of a command without subcommands. -/
def simple (flags : List Flag) (most : Option Nat) : Grammar := ⟨helpFlag :: flags, most, []⟩

def mainGrammar : Grammar :=
  { flags := [helpFlag, ⟨"version", some 'V', .stop .version⟩, pathFlag "config" 'c',
      textFlag "log-level" (some 'l')]
    most := some 0
    subcommands := ["select", "list", "report", "lists", "gen-config", "help"] }

def selectGrammar : Grammar :=
  simple [numberFlag "concurrency", numberFlag "probe-timeout-ms", numberFlag "session-timeout-ms",
    textFlag "source" none] (some 0)

def listGrammar : Grammar := simple [textFlag "source" none] (some 0)

def reportGrammar : Grammar := simple [⟨"ok", none, .switch⟩] (some 1)

def listsGrammar : Grammar :=
  ⟨[helpFlag], some 0, ["show", "create", "delete", "add", "remove", "help"]⟩

def genConfigGrammar : Grammar := simple [pathFlag "output" 'o'] (some 0)

/-- The words of a line, all of them told apart. -/
def read (g : Grammar) (words : List String) : Except Stop Line := Line.scan g words .empty

/-- What the words after `help` ask for: help on the command that they name below the one with the
given subcommands. -/
def helpOn (subcommands : List String) : List String → Stop
  | [] => .help
  | [name] => if name ∈ subcommands then .help else .usage
  | _ => .usage

/-- A number that an option gives. -/
def numberOf (l : Line) (name : String) : Option Nat := (l.value? name).bind number?

namespace ListAction

def parse : String × List String → Except Stop ListAction
  | ("show", words) => (read (simple [] (some 0)) words).map fun _ => .show
  | ("create", words) => do
    let l ← read (simple [textFlag "name" none] none) words
    match l.words with
    | id :: entries => return .create id (l.value? "name") entries
    | [] => throw .usage
  | ("delete", words) => do
    match (← read (simple [] (some 1)) words).words with
    | [id] => return .delete id
    | _ => throw .usage
  | ("add", words) => do
    match (← read (simple [] (some 2)) words).words with
    | [id, entry] => return .add id entry
    | _ => throw .usage
  | ("remove", words) => do
    match (← read (simple [] (some 2)) words).words with
    | [id, entry] => return .remove id entry
    | _ => throw .usage
  | ("help", words) => throw (helpOn listsGrammar.subcommands words)
  | _ => throw .usage

end ListAction

namespace Command

def parse : String × List String → Except Stop Command
  | ("select", words) => (read selectGrammar words).map fun l =>
      .select ⟨numberOf l "concurrency", numberOf l "probe-timeout-ms",
        numberOf l "session-timeout-ms"⟩ (l.value? "source")
  | ("list", words) => (read listGrammar words).map fun l => .list (l.value? "source")
  | ("report", words) => do
    let l ← read reportGrammar words
    match l.words with
    | [address] => return .report address (l.has "ok")
    | _ => throw .usage
  | ("lists", words) => do
    match (← read listsGrammar words).subcommand with
    | some action => return .lists (← ListAction.parse action)
    | none => throw .usage
  | ("gen-config", words) => (read genConfigGrammar words).map fun l =>
      .genConfig ((l.value? "output").getD defaultConfig)
  | ("help", "lists" :: words) => throw (helpOn listsGrammar.subcommands words)
  | ("help", words) => throw (helpOn mainGrammar.subcommands words)
  | _ => throw .usage

end Command

/-- The answer to a question for the version. -/
def versionText : String := "dnspick 0.1.0\n"

/-- The answer to a question for help. -/
def helpText : String := String.join
  (["dnspick - find a DNS resolver that can carry your tunnel",
    "",
    "Usage: dnspick [OPTIONS] <COMMAND>",
    "",
    "Commands:",
    "  select      Test resolvers and report the first one that works",
    "  list        Show resolvers in the order they would be tested",
    "  report      Report whether the tunnel worked through a resolver",
    "  lists       Manage user-defined resolver lists: show, create, delete, add, remove",
    "  gen-config  Generate a sample configuration file",
    "",
    "Options:",
    "  -c, --config <CONFIG>        Path to configuration file [default: dnspick.toml]",
    "  -l, --log-level <LOG_LEVEL>  Log level (error, warn, info, debug, trace)",
    "  -h, --help                   Print help",
    "  -V, --version                Print version"].map (· ++ "\n"))

/-- What is told about a line that is wrong. -/
def usageText : String := String.join
  (["error: invalid command line",
    "",
    "Usage: dnspick [OPTIONS] <COMMAND>",
    "",
    "For more information, try '--help'."].map (· ++ "\n"))

namespace Invocation

/-- The command of a line. -/
def parse (words : List String) : Except Stop Invocation := do
  let l ← read mainGrammar words
  match l.subcommand with
  | some command =>
    let command ← Command.parse command
    match l.fault with
    | some fault => throw fault
    | none => return ⟨(l.value? "config").getD defaultConfig, l.value? "log-level", command⟩
  | none => throw .usage

end Invocation
end CommandLine
end ResolverRace
