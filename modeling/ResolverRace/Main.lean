import ResolverRace.CommandLine.Run
import ResolverRace.Probe.Udp
import Std.Async.Timer
import Std.Async.UDP

/-!
# The program

Looks at the files that a command names, tests resolvers over UDP where a command asks for that,
runs the command, and writes back what it changed. What a command does is decided elsewhere.
-/

namespace ResolverRace
namespace Main
open CommandLine

/-! ## Files -/

/-- Where a place is found by the operating system. -/
def pathOf (place : Place) : String := "/" ++ String.intercalate "/" place

/-- Takes in what stands at a place. -/
def look (disk : Disk) (place : Place) : IO Disk := do
  let path := (← IO.currentDir) / pathOf place
  if place.isEmpty then return disk
  else if ← path.isDir then return disk.set place .directory
  else if ← path.pathExists then
    return disk.set place (.file (String.fromUTF8? (← IO.FS.readBinFile path)))
  else return disk

/-- Takes in what stands along a path. -/
def lookAlong (disk : Disk) (here : Place) : List String → IO Disk
  | [] => look disk here
  | name :: names => do
    let disk ← look disk here
    let next :=
      if name = "." then here else if name = ".." then here.dropLast else here ++ [name]
    lookAlong disk next names

def lookAt (disk : Disk) (path : String) : IO Disk :=
  lookAlong disk (disk.root path) (Disk.names path)

/-- The paths that settings name. -/
def pathsOf (settings : Settings) : List String :=
  let stateFile := settings.general.stateFile.toList
  stateFile ++ stateFile.map FileStore.siblingPath ++ settings.selection.builtinList.toList

/-- The files that a command can touch. -/
def survey (i : Invocation) : IO Disk := do
  let home := Disk.names (← IO.currentDir).toString
  let disk ← lookAlong ⟨[], home⟩ [] home
  match i.command with
  | .genConfig output => lookAt disk output
  | _ =>
    let disk ← lookAt disk i.config
    match Settings.load disk i.config with
    | .ok settings => (pathsOf settings).foldlM lookAt disk
    | .error _ => return disk

/-- Writes a file by putting a new one in its place. -/
def replaceFile (path content : String) : IO Unit := do
  let sibling := FileStore.siblingPath path
  IO.FS.writeFile sibling content
  IO.FS.rename sibling path

/-- Writes back what has changed: takes away what is gone, then makes directories before what is in
them. -/
def commit (before after : Disk) : IO Unit := do
  for (place, _) in before.nodes do
    if (after.node? place).isNone then IO.FS.removeFile (pathOf place)
  let changed := after.nodes.filter fun entry => before.node? entry.1 ≠ some entry.2
  for (place, node) in changed.mergeSort fun x y => x.1.length ≤ y.1.length do
    match node with
    | .directory => IO.FS.createDirAll (pathOf place)
    | .file (some content) => replaceFile (pathOf place) content
    | .file none => return

/-! ## Resolvers -/

def ipv6Of (x : IPv6) : Std.Net.IPv6Addr := ⟨⟨x.groups.toArray, by simp [x.length_eq]⟩⟩

def socketOf (s : SocketAddress) : Std.Net.SocketAddress :=
  match s.ip with
  | .v4 x => .v4 ⟨.ofParts x.a x.b x.c x.d, s.port⟩
  | .v6 x => .v6 ⟨ipv6Of x, s.port⟩

/-- Microseconds on a clock that only runs forward. -/
def clock : IO Duration := return (← IO.monoNanosNow) / 1000

/-- The next datagram within a time. -/
def receive (socket : Std.Async.UDP.Socket) (within : Duration) :
    Std.Async.Async (Option (List UInt8)) := do
  let patience ← Std.Async.Selector.sleep (.ofNat (wholeMillis within + 1))
  Std.Async.Selectable.one #[
    .case (socket.recvSelector (.ofNat Udp.maxDatagram)) fun (bytes, _) =>
      return some bytes.toList,
    .case patience fun _ => return none]

/-- Collects datagrams until one of them decides or the budget is used up. -/
partial def collect (socket : Std.Async.UDP.Socket) (id : UInt16) (started budget : Duration)
    (datagrams : List Udp.Datagram) : IO (List Udp.Datagram) := do
  let spent := (← clock) - started
  if budget ≤ spent then return datagrams
  else
    match ← (receive socket (budget - spent)).block with
    | none => return datagrams
    | some bytes =>
      let datagrams := datagrams ++ [⟨(← clock) - started, bytes⟩]
      let waiting : Udp.Waiting := ⟨Dns.Message.decode?, id, budget, 0⟩
      if (waiting.verdict? datagrams).isSome then return datagrams
      else collect socket id started budget datagrams

/-- Sends a query and waits for what comes back. -/
def exchange (target : SocketAddress) (query : List UInt8) (id : UInt16) (budget : Duration) :
    IO Udp.Exchange := do
  let socket ← Std.Async.UDP.Socket.mk
  try
    socket.connect (socketOf target)
  catch e => return .failed s!"failed to connect to {target.text}: {e}"
  let started ← clock
  try
    (socket.send ⟨query.toArray⟩).block
  catch e => return .failed s!"failed to send DNS query: {e}"
  try
    return .replies (← collect socket id started budget [])
  catch e => return .replies [] (some ⟨(← clock) - started, toString e⟩)

/-- Tests a resolver. -/
def measure (a : Address) (tunnel : Tunnel) (budget : Duration) : IO Answer := do
  let label := UInt32.ofNat (← IO.rand 0 (UInt32.size - 1))
  let id := UInt16.ofNat (← IO.rand 0 (UInt16.size - 1))
  let seen ←
    match a.socket?, Dns.query tunnel.domain label id with
    | some target, .ok query => exchange target query id budget
    | _, _ => pure (.replies [])
  return Udp.probe (fun _ _ => seen) label id a tunnel budget

/-- Tests resolvers in groups that fit the workers, until a group holds one that works. -/
partial def measureAll (p : Params) (left : List Address) (known : List (Address × Answer)) :
    IO (List (Address × Answer)) := do
  let size := max 1 (p.workers left.length)
  let tasks ← (left.take size).mapM fun a =>
    return (a, ← IO.asTask (measure a p.tunnel p.probeTimeout))
  let answers ← tasks.mapM fun (a, task) => return (a, ← IO.ofExcept task.get)
  let known := known ++ answers
  let rest := left.drop size
  if rest.isEmpty || answers.any (·.2.response.isSuccess) then return known
  else measureAll p rest known

/-- A probe that answers as it was measured. -/
def recorded (known : List (Address × Answer)) : Probe := fun a _ _ =>
  (known.lookup a).getD ⟨none, .failure "not tested"⟩

/-- The probe that a command needs. -/
def probeFor (i : Invocation) (disk : Disk) (chance : Random.Stream) : IO Probe := do
  match i.command with
  | .select overrides source =>
    let prepared := do
      let settings ← (loadSettings i.config disk).toOption
      (prepareSelect (override settings overrides) source
        ⟨disk, recorded [], chance⟩).toOption
    match prepared with
    | some s => return recorded (← measureAll s.defaults s.favoured.addresses [])
    | none => return recorded []
  | _ => return recorded []

/-! ## Runs -/

/-- Runs a command. -/
def execute (i : Invocation) : IO UInt32 := do
  let disk ← survey i
  let chance := Random.Stream.ofSeed (.ofNat (← IO.rand 0 (UInt64.size - 1)))
  let ending := i.run ⟨disk, ← probeFor i disk chance, chance⟩
  commit disk ending.disk
  IO.print ending.output
  IO.eprint ending.errorOutput
  return .ofNat ending.code

end Main
end ResolverRace

open ResolverRace CommandLine in
def main (args : List String) : IO UInt32 := do
  match Invocation.parse args with
  | .ok i => Main.execute i
  | .error .version =>
    IO.print versionText
    return 0
  | .error .help =>
    IO.print helpText
    return 0
  | .error .usage =>
    IO.eprint usageText
    return 2
