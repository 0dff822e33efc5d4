/-!
# The words of a command line

A command takes options with and without values, plain words, and perhaps subcommands. An option
is written `--name`, and `-n` if it has a letter; its value follows as the next word or is attached,
as in `--name=value`, `-nvalue` and `-n=value`. After `--` every word is a plain word. A word that
begins with a hyphen is no value, except a lone hyphen. The name of a subcommand ends the line; what
follows it is the subcommand's. A value that is its own word is checked when the next option is
read, and one right before a subcommand after the subcommand was.

* `Line.scan` — tells the words of a line apart.
-/

namespace ResolverRace
namespace CommandLine

/-- What a line asks for if it does not name a command that can be run. -/
inductive Stop where
  /-- The line is wrong. -/
  | usage
  | version
  | help
  deriving DecidableEq, Repr

/-- What an option means. -/
inductive Meaning where
  /-- It has a value, which is checked. -/
  | value (accepts : String → Bool)
  /-- It is there or not. -/
  | switch
  /-- It asks for something else than a run. -/
  | stop (s : Stop)

structure Flag where
  name : String
  letter : Option Char
  meaning : Meaning

/-- What a command takes. -/
structure Grammar where
  flags : List Flag
  /-- The most plain words; any number if there is no bound. -/
  most : Option Nat
  subcommands : List String

/-- A line whose words are told apart. -/
structure Line where
  /-- Options with their values. -/
  values : List (String × String)
  switches : List String
  /-- Plain words. -/
  words : List String
  /-- A subcommand and the words after it. -/
  subcommand : Option (String × List String)
  /-- What is wrong with a value right before the subcommand. The subcommand is read first. -/
  fault : Option Stop

/-- What a word looks like. -/
inductive Shape where
  | plain
  | long (name : String) (value : Option String)
  | short (letter : Char) (value : Option String)

namespace Shape

/-- A value attached to a letter; one equals sign in front of it is dropped. -/
def attached : List Char → Option String
  | [] => none
  | '=' :: value => some (String.ofList value)
  | value => some (String.ofList value)

def ofChars : List Char → Shape
  | '-' :: '-' :: rest =>
    match rest.span (· ≠ '=') with
    | (name, '=' :: value) => .long (String.ofList name) (some (String.ofList value))
    | (name, _) => .long (String.ofList name) none
  | '-' :: letter :: rest => .short letter (attached rest)
  | _ => .plain

def ofWord (word : String) : Shape := ofChars word.toList

/-- Whether a word can be the value of an option. -/
def isPlain : Shape → Bool
  | .plain => true
  | _ => false

end Shape

namespace Line

def empty : Line := ⟨[], [], [], none, none⟩

def value? (l : Line) (name : String) : Option String := l.values.lookup name

def has (l : Line) (name : String) : Bool := name ∈ l.switches

/-- Takes in a plain word. -/
def takeWord (g : Grammar) (l : Line) (word : String) : Except Stop Line :=
  if g.most.all (l.words.length < ·) then .ok { l with words := l.words ++ [word] }
  else .error .usage

/-- Takes in an option with its value; no option comes twice. -/
def takeValue (l : Line) (name : String) (accepts : String → Bool) (value : String) :
    Except Stop Line :=
  if (l.value? name).isSome || !accepts value then .error .usage
  else .ok { l with values := l.values ++ [(name, value)] }

/-- Takes in a switch; no switch comes twice. -/
def takeSwitch (l : Line) (name : String) : Except Stop Line :=
  if l.has name then .error .usage else .ok { l with switches := l.switches ++ [name] }

/-- What becomes of a line when an option is found in it. -/
inductive Found where
  | stop (s : Stop)
  | line (l : Line)
  /-- The value is the next word. -/
  | wants (name : String) (accepts : String → Bool)

def ofExcept : Except Stop Line → Found
  | .ok l => .line l
  | .error s => .stop s

/-- Takes in an option; `tight` tells that letters may follow it in the same word. -/
def takeFlag (l : Line) (f : Flag) (value : Option String) (tight : Bool) : Found :=
  match f.meaning, value with
  | .value accepts, some v => ofExcept (l.takeValue f.name accepts v)
  | .value accepts, none => .wants f.name accepts
  | .switch, none => ofExcept (l.takeSwitch f.name)
  | .stop s, none => .stop s
  | .stop s, some _ => .stop (if tight then s else .usage)
  | .switch, some _ => .stop .usage

/-- Takes in an option as it is written. -/
def takeOption (g : Grammar) (l : Line) : Shape → Found
  | .plain => .stop .usage
  | .long name value =>
    match g.flags.find? (·.name = name) with
    | some f => l.takeFlag f value false
    | none => .stop .usage
  | .short letter value =>
    match g.flags.find? (·.letter = some letter) with
    | some f => l.takeFlag f value true
    | none => .stop .usage

/-- The subcommand that comes right after a value, with what is wrong with the value. -/
def deferFault (g : Grammar) (l : Line) (fault : Stop) : List String → Except Stop Line
  | [] => .error fault
  | word :: words =>
    if word ∈ g.subcommands then
      .ok { l with subcommand := some (word, words), fault := some fault }
    else .error fault

/-- Tells the words of a line apart. -/
def scan (g : Grammar) : List String → Line → Except Stop Line
  | [], l => .ok l
  | word :: words, l =>
    if word ∈ g.subcommands then .ok { l with subcommand := some (word, words) }
    else if word = "--" then words.foldlM (takeWord g) l
    else
      match Shape.ofWord word with
      | .plain =>
        match l.takeWord g word with
        | .ok l => scan g words l
        | .error s => .error s
      | shape =>
        match l.takeOption g shape with
        | .stop s => .error s
        | .line l => scan g words l
        | .wants name accepts =>
          match words with
          | [] => .error .usage
          | value :: words =>
            if (Shape.ofWord value).isPlain then
              match l.takeValue name accepts value with
              | .ok l => scan g words l
              | .error s => l.deferFault g s words
            else .error .usage

end Line
end CommandLine
end ResolverRace
