import ResolverRace.Settings.Decoder
import ResolverRace.Toml.Reader

/-!
# Settings files

Settings are written in TOML. `Settings.sample` is the file that a new user starts from.
-/

namespace ResolverRace
namespace Settings

/-- Validated settings. -/
def checked (s : Settings) : Except Error Settings := s.validate.map fun () => s

/-- Reads and validates settings. -/
def ofToml (text : String) : Except Error Settings :=
  match Toml.parse? text with
  | none => .error (.document .malformed)
  | some d =>
    match ofDatum false d with
    | .error cause => .error (.document cause)
    | .ok s => s.checked

/-- Reads and validates the settings in a file. -/
def load (disk : Disk) (path : String) : Except Error Settings :=
  match disk.readText path with
  | .error cause => .error (.disk cause)
  | .ok text => ofToml text

def sampleLines : List String :=
  ["# dnspick configuration",
    "",
    "[common]",
    "# Log level: \"error\", \"warn\", \"info\", \"debug\", \"trace\"",
    "log_level = \"info\"",
    "",
    "# Where to remember the last working resolver and demotions (optional)",
    "# Without it, nothing is remembered between runs.",
    "# state_file = \"dnspick-state.json\"",
    "",
    "[selection]",
    "# Tunnel domain the resolvers must be able to reach (required for `select`)",
    "domain = \"t.example.com\"",
    "",
    "# Opaque credential for the tunnel server (e.g. its public key)",
    "credential = \"\"",
    "",
    "# Number of resolvers probed at once, 1-10 (1 = one at a time)",
    "concurrency = 5",
    "",
    "# Time budget per resolver in milliseconds, 500-10000",
    "probe_timeout_ms = 3000",
    "",
    "# Time budget for the whole selection in milliseconds",
    "session_timeout_ms = 60000",
    "",
    "# Resolver list to use: \"builtin\" or \"custom:<list id>\"",
    "source = \"builtin\"",
    "",
    "# Replace the bundled resolver list with a file (one address per line)",
    "# builtin_list = \"/etc/dnspick/resolvers.txt\"",
    "",
    "# Shuffle the built-in list before well-known resolvers are moved up",
    "shuffle = true",
    "",
    "# User-defined resolver lists; probed in the order given",
    "# [[lists]]",
    "# id = \"home\"",
    "# name = \"Home resolvers\"",
    "# resolvers = [\"192.168.1.1\", \"1.1.1.1\", \"9.9.9.9:53\"]"]

/-- The settings file to start from. -/
def sample : String := String.join (sampleLines.map (· ++ "\n"))

end Settings
end ResolverRace
