import Std.Async.DNS
import Std.Async.TCP
import Std.Sync.Channel
import ReplicaStore.Server.LeaderLink
import ReplicaStore.Settings.Load
import ReplicaStore.Snapshot.Place

/-!
# The program

Runs a server on real sockets, clocks and files.  Everything that comes from outside
is lined up as an `Input`; the server takes one at a time, and what it has to say then
is sent.  Nothing is decided here.
-/

namespace ReplicaStore

abbrev Socket := Std.Async.TCP.Socket.Client

/-- What comes from outside. -/
inductive Input where
  | tick
  | accepted (socket : Socket)
  | received (id : ClientId) (bytes : Bytes)
  | closed (id : ClientId)
  | linkOpened (epoch : Nat) (socket : Socket)
  | linkReceived (epoch : Nat) (bytes : Bytes)
  | linkEnded (epoch : Nat) (error : Link.LinkError)

instance : Inhabited Input := ⟨.tick⟩

/-- A running server and what it is run with. -/
structure Host where
  server : Server
  inputs : Std.Channel Input
  sockets : Std.ExtTreeMap ClientId Socket := ∅
  /-- The socket of the link to the leader, and the epoch that it was opened for. -/
  link : Option (Nat × Socket) := none
  /-- The epoch for which a link was last asked for. -/
  dialled : Nat := 0
  /-- The millisecond at which the clock was last read. -/
  lastRead : Nat
  /-- The millisecond of the last regular upkeep. -/
  lastUpkeep : Nat

namespace Host

/-- Milliseconds between two rounds of regular upkeep. -/
def upkeepPeriod : Nat := 1000

/-- Milliseconds between two looks at what has become due. -/
def tickPeriod : UInt32 := 10

/-- Bytes read at a time. -/
def readSize : UInt64 := 4096

/-- Runs something beside the server. -/
def aside (action : IO Unit) : IO Unit :=
  discard (IO.asTask action .dedicated)

/-- Lines an input up. -/
def push (inputs : Std.Channel Input) (input : Input) : IO Unit :=
  discard (inputs.send input)

/-- Sends bytes; whether they arrive is found out by the side that reads. -/
def send (socket : Socket) (bytes : Bytes) : IO Unit := do
  if bytes.isEmpty then return
  try discard (socket.send ⟨bytes.toArray⟩).toIO catch _ => return

/-- Closes the sending side. -/
def close (socket : Socket) : IO Unit := do
  try discard socket.shutdown.toIO catch _ => return

/-- Takes all bytes from a socket until it ends. -/
partial def readAll (socket : Socket) (use : Bytes → IO Unit) : IO Unit := do
  match ← (socket.recv? readSize).block with
  | none => return
  | some bytes =>
      use bytes.toList
      readAll socket use

/-- Reads from a client's connection. -/
def readClient (inputs : Std.Channel Input) (id : ClientId) (socket : Socket) : IO Unit := do
  try readAll socket fun bytes => push inputs (.received id bytes) catch _ => pure ()
  push inputs (.closed id)

/-- The address behind a host name and a port. -/
def resolve (host : String) (port : Nat) : IO Std.Net.SocketAddress := do
  let addresses : Array Std.Net.IPAddr ← (Std.Async.DNS.getAddrInfo host (toString port)).block
  match addresses.toList with
  | .v4 address :: _ => return .v4 ⟨address, port.toUInt16⟩
  | .v6 address :: _ => return .v6 ⟨address, port.toUInt16⟩
  | [] => throw (IO.userError s!"unknown host {host}")

/-- Opens a link to a leader and reads from it. -/
def dial (inputs : Std.Channel Input) (epoch : Nat) (link : Link.OpenLink) : IO Unit := do
  try
    let socket ← Std.Async.TCP.Socket.Client.mk
    (socket.connect (← resolve link.host link.port)).block
    push inputs (.linkOpened epoch socket)
    readAll socket fun bytes => push inputs (.linkReceived epoch bytes)
    push inputs (.linkEnded epoch .closed)
  catch error => push inputs (.linkEnded epoch (.failed (toString error)))

/-- Reads the clocks. -/
def readClocks (host : Host) : IO Host := do
  let wall := (← Std.Time.Timestamp.now).toMillisecondsSinceUnixEpoch.val
  let now ← IO.monoMsNow
  return { host with server := host.server.advance wall (now - host.lastRead), lastRead := now }

/-- Stores bytes in a file, which is not touched before all of them are written. -/
def replaceFile (path : String) (bytes : Bytes) : IO Unit := do
  let unfinished := path ++ ".tmp"
  IO.FS.writeBinFile unfinished ⟨bytes.toArray⟩
  IO.FS.rename unfinished path

/-- Whether there is a folder under a path.  Only a folder can be opened but not read. -/
def isFolder (path : String) : IO Bool := do
  try
    let handle ← IO.FS.Handle.mk path .read
    discard (handle.read 1)
    return false
  catch
    | .inappropriateType .. => return true
    | _ => return false

/-- Looks at where a path leads. -/
def findPlace (path : String) : IO Snapshot.Place := do
  let start := if path.startsWith "/" then "/" else "./"
  let folders ← (Snapshot.Place.way (Snapshot.Place.names path)).filterM fun names =>
    isFolder (start ++ "/".intercalate names)
  return .ofPath folders.contains path

/-- Whether a file can be made beside a path. -/
def canWrite (path : String) : IO Bool := do
  try
    IO.FS.writeBinFile (path ++ ".tmp") .empty
    IO.FS.removeFile (path ++ ".tmp")
    return true
  catch _ => return false

/-- Finds out how far a snapshot can be stored. -/
def probe (settings : Settings) : IO (Option Nat) := do
  let path := settings.snapshotPath
  let place ← findPlace path
  if place = .free && !(← canWrite path) then return some 0
  return place.breaksAfter settings.databases

/-- Notes how far snapshots can be stored, and that none is waiting for it. -/
def setStorage (breaksAfter : Option Nat) (host : Host) : Host :=
  { host with
    server := { host.server with node := { host.server.node with storage := { breaksAfter } } } }

/-- Stores a snapshot that the server has made.  While that is not possible, it is tried
again and again whether it is. -/
def store (host : Host) : IO Host := do
  let node := host.server.node
  match node.storage.file with
  | some bytes =>
      try
        replaceFile node.settings.snapshotPath bytes
        return host.setStorage none
      catch _ => return host.setStorage (some 0)
  | none =>
      if node.storage.breaksAfter.isNone then return host
      else return host.setStorage (← probe node.settings)

/-- Sends what the server has for its clients. -/
def deliver (host : Host) : IO Host := do
  let (deliveries, server) := host.server.deliver
  let mut sockets := host.sockets
  for delivery in deliveries do
    if let some socket := sockets[delivery.id]? then
      send socket delivery.bytes
      if delivery.closing then
        close socket
        sockets := sockets.erase delivery.id
  return { host with server, sockets }

/-- Sends what the server has for its leader, gives up a link that it does not want any
more, and opens one that it wants. -/
def tendLink (host : Host) : IO Host := do
  let (queued, server) := host.server.takeLinkQueue
  let mut host := { host with server }
  if let some (epoch, socket) := host.link then
    if server.node.role.epoch = epoch then queued.forM (send socket)
    else
      close socket
      host := { host with link := none }
  if let some (epoch, link) := server.wantedLink? then
    if epoch ≠ host.dialled then
      aside (dial host.inputs epoch link)
      host := { host with dialled := epoch }
  return host

/-- Sends what an exchange on the link has called for. -/
def exchange (host : Host) (turn : List Link.Action × Server) : IO Host := do
  if let some (_, socket) := host.link then
    for action in turn.1 do
      if let .send bytes := action then send socket bytes
  return { host with server := turn.2 }

/-- Takes a new connection on, or refuses it. -/
def accept (host : Host) (socket : Socket) : IO Host := do
  match host.server.accept? (toString (← socket.getPeerName)) with
  | some (id, server) =>
      aside (readClient host.inputs id socket)
      return { host with server, sockets := host.sockets.insert id socket }
  | none =>
      send socket Server.refusal
      close socket
      return host

/-- Handles an event of the node. -/
def handle (host : Host) (event : Event) : Host :=
  { host with server := { host.server with node := host.server.node.handle event } }

/-- Runs the regular upkeep when it is due, and a step of a snapshot being written. -/
def tick (host : Host) : Host :=
  let stepped := { host with
    server := { host.server with node := (host.server.node.stepWriter 1).2 } }
  if host.lastUpkeep + upkeepPeriod ≤ host.lastRead then
    { (stepped.handle .upkeep) with lastUpkeep := host.lastRead }
  else stepped

/-- Takes one input. -/
def take (host : Host) (input : Input) : IO Host := do
  match input with
  | .tick => return host.tick
  | .accepted socket => host.accept socket
  | .received id bytes => return { host with server := host.server.receive id bytes }
  | .closed id =>
      return { host with
        server := host.server.disconnected id, sockets := host.sockets.erase id }
  | .linkOpened epoch socket =>
      if host.server.node.role.epoch = epoch then
        let host := { host with link := some (epoch, socket) }
        host.exchange host.server.linkOpened
      else
        close socket
        return host
  | .linkReceived epoch bytes =>
      if host.server.node.role.epoch = epoch then host.exchange (host.server.linkReceived bytes)
      else return host
  | .linkEnded epoch error => host.exchange (host.server.linkEnded epoch error)

/-- Takes inputs without end. -/
partial def run (host : Host) : IO Unit := do
  let input ← host.inputs.sync.recv
  let host ← (← host.readClocks).take input
  let host ← host.store
  let host ← host.deliver
  (← host.tendLink).run

/-- Ticks without end. -/
partial def tickForever (inputs : Std.Channel Input) : IO Unit := do
  push inputs .tick
  IO.sleep tickPeriod
  tickForever inputs

/-- Accepts connections without end. -/
partial def acceptForever (listener : Std.Async.TCP.Socket.Server) (inputs : Std.Channel Input) :
    IO Unit := do
  push inputs (.accepted (← listener.accept.block))
  acceptForever listener inputs

/-- The bytes of a file, if it can be read. -/
def readFile (path : String) : IO (Option Bytes) := do
  try return some (← IO.FS.readBinFile path).toList catch _ => return none

/-- The bytes of the stored snapshot, if there is one. -/
def readSnapshot (path : String) : IO (Except Snapshot.SnapshotError (Option Bytes)) := do
  try return .ok (some (← IO.FS.readBinFile path).toList)
  catch
    | .noFileOrDirectory .. => return .ok none
    | _ => return .error .storage

/-- Reads the settings, and first the file that they name, if they name one. -/
def readSettings (arguments : List String) : IO (Except Settings.SettingsError Settings) := do
  let named := (Settings.ofCommandLine arguments).toOption.bind (·.file)
  let contents ← match named with
    | some path => readFile path
    | none => pure none
  return Settings.load (fun _ => contents) arguments

/-- A supply of ids that no other node is likely to have. -/
def drawSupply : IO Stream.IdSupply := do
  let bytes ← IO.getRandomBytes 15
  return { next := bytes.toList.foldl (fun number byte => 256 * number + byte.toNat) 0 }

/-- The port of an address. -/
def portOf : Std.Net.SocketAddress → Nat
  | .v4 address => address.port.toNat
  | .v6 address => address.port.toNat

/-- Listens, loads the stored snapshot and serves.  The result tells why the server could
not be started. -/
def serve (settings : Settings) : IO String := do
  let listener ← Std.Async.TCP.Socket.Server.mk
  listener.bind (← resolve settings.bind settings.port)
  listener.listen 128
  let snapshot ← readSnapshot settings.snapshotPath
  let wall := (← Std.Time.Timestamp.now).toMillisecondsSinceUnixEpoch.val
  match Server.start settings (← drawSupply) { wall } snapshot with
  | .error error => return error.message
  | .ok server =>
      let port := portOf (← listener.getSockName)
      let storage := { breaksAfter := ← probe settings : Storage }
      let server := { server with node := { server.node with port, storage } }
      let inputs ← Std.Channel.new
      aside (tickForever inputs)
      aside (acceptForever listener inputs)
      let now ← IO.monoMsNow
      { server, inputs, lastRead := now, lastUpkeep := now : Host }.run
      return ""

end Host
end ReplicaStore

open ReplicaStore in
/-- Reads the settings from the command line and serves. -/
def main (arguments : List String) : IO UInt32 := do
  match ← Host.readSettings arguments with
  | .error (.usage .displayHelp) =>
      IO.println "usage: replica-store [file of settings] [--name value]..."
      return 0
  | .error (.usage .displayVersion) =>
      IO.println "replica-store 0.1.0"
      return 0
  | .error (.usage .overflow) =>
      IO.eprintln (Settings.SettingsError.usage .overflow).message
      return 101
  | .error (.usage error) =>
      IO.eprintln (Settings.SettingsError.usage error).message
      return 2
  | .error error =>
      IO.eprintln error.message
      return 1
  | .ok settings =>
      try
        IO.eprintln (← Host.serve settings)
        return 1
      catch error =>
        IO.eprintln s!"cannot listen on {settings.bind}:{settings.port}: {error}"
        return 1
