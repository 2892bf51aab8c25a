import DeadDrop.Http.Layer
import DeadDrop.Http.Wire
import DeadDrop.Log.Line
import DeadDrop.Server.Session
import Std.Internal.UV.Signal
import Std.Internal.UV.TCP
import Std.Sync.Mutex
import Std.Time.DateTime.Timestamp

/-!
# The program

The outermost layer: it reads the command line and the clocks, looks at the disk and writes to it,
prints the log, and carries octets between connections and the site. What is answered is decided
elsewhere.
-/

namespace DeadDrop.Main

open Std.Internal.UV

def clock : IO Clock := do
  let wall := (← Std.Time.Timestamp.now).toNanosecondsSinceUnixEpoch.val
  return { wall, monotonic := ← IO.monoNanosNow }

def text (s : String) : Text := s.toList

def string (t : Text) : String := String.ofList t

def octets (b : ByteArray) : Bytes := b.toList

def byteArray (b : Bytes) : ByteArray := ⟨b.toArray⟩

/-! ### The log -/

def print (format : CommandLine.LogFormat) (filter : LogFilter) (events : List LogEvent) :
    IO Unit := do
  let moment := (← clock).moment?.getD { seconds := 0, nanos := 0 }
  for event in events.filter filter.shows do
    IO.println (string (match format with
      | .text => event.toLine moment
      | .json => event.toJson moment))

/-! ### The disk -/

/-- What there is at an absolute path. A file that cannot be read counts as empty. -/
def look (path : Text) : IO (Option DiskNode) := do
  let place := (← IO.currentDir) / string path
  if ← place.isDir then return some .directory
  if ← place.pathExists then
    try return some (.file (octets (← IO.FS.readBinFile place)))
    catch _ => return some (.file [])
  return none

def placeOf (place : List Text) (piece : Text) : List Text :=
  if Path.isVoid piece then place
  else if piece = "..".toList then place.dropLast
  else place ++ [piece]

/-- Looks along a path from a place, and adds what there is to a disk. -/
def lookAlong (disk : Disk) (place : List Text) : List Text → IO Disk
  | [] => return disk
  | piece :: rest => do
    let place := placeOf place piece
    let disk := match ← look ('/' :: Text.join ['/'] place) with
      | some node => { disk with nodes := disk.nodes.insert place node }
      | none => disk
    lookAlong disk place rest

def diskOf (paths : List Text) : IO Disk := do
  let home := (Path.pieces (text (← IO.currentDir).toString)).filter fun p => !Path.isVoid p
  let bare ← lookAlong { nodes := Table.empty, home, rooted := true } [] home
  paths.foldlM (fun disk path =>
    lookAlong disk (if Path.isAbsolute path then [] else home) (Path.pieces path)) bare

/-- Writes the rows of a site to the file of its store. -/
def save (c : Config) (site : Http.Site Storage) : IO Unit := do
  match site.store.backend with
  | .rows rows => IO.FS.writeBinFile (string c.storeFile) (byteArray rows.toImage)
  | _ => return ()

/-! ### Connections -/

def networkAddress (address : SocketAddress) : Std.Net.SocketAddress :=
  match address.ip with
  | .v4 ip => .v4 ⟨⟨#v[ip.a, ip.b, ip.c, ip.d]⟩, UInt16.ofNat address.port⟩
  | .v6 ip =>
    .v6 ⟨⟨⟨ip.groups.toArray, by simpa using ip.length_groups⟩⟩, UInt16.ofNat address.port⟩

def peerOf (address : Std.Net.SocketAddress) : SocketAddress :=
  match address with
  | .v4 ⟨⟨o⟩, port⟩ =>
    { ip := .v4 { a := o[0], b := o[1], c := o[2], d := o[3] }, port := port.toNat, scope := 0 }
  | .v6 ⟨⟨g⟩, port⟩ =>
    { ip := .v6 { groups := g.toList, length_groups := by simp }, port := port.toNat, scope := 0 }

def bind? (address : SocketAddress) : IO (Option TCP.Socket) := do
  try
    let socket ← TCP.Socket.new
    socket.bind (networkAddress address)
    socket.listen 128
    return some socket
  catch _ => return none

def outcome {α : Type} (promise : IO.Promise (Except IO.Error α)) : IO (Option α) := do
  match ← IO.wait promise.result? with
  | some (.ok a) => return some a
  | _ => return none

/-- The greatest number of octets in the head of a request. -/
def maxHead : Nat := 65536

/-- Receives the head of a request. -/
partial def receiveHead (socket : TCP.Socket) (received : Bytes) : IO (Option Bytes) := do
  match Http.Wire.head? received with
  | some head => return some head
  | none =>
    if maxHead < received.length then return none
    match ← outcome (← socket.recv? 4096) with
    | some (some more) => receiveHead socket (received ++ octets more)
    | _ => return none

/-- What a running server shares between its connections. -/
structure Running where
  config : Config
  format : CommandLine.LogFormat
  filter : LogFilter
  site : Std.Mutex (Http.Site Storage)

/-- Changes the site, prints what that logs, and writes the store if it has changed. -/
def Running.change {α : Type} (r : Running) (f : Http.Site Storage → α × Http.Site Storage) :
    IO α :=
  r.site.atomically do
    let before ← get
    let (a, after) := f before
    set { after with log := [] }
    print r.format r.filter after.log
    match before.store.backend, after.store.backend with
    | .rows old, .rows new =>
      if old.table.entries != new.table.entries then save r.config after
    | _, _ => pure ()
    return a

/-- Answers the request of a connection, and closes the connection. -/
def Running.serve (r : Running) (socket : TCP.Socket) : IO Unit := do
  let peer := peerOf (← socket.getPeerName)
  if let some head ← receiveHead socket [] then
    let response : Outcome Empty Http.Response ←
      match Http.Wire.request? head (some peer) with
      | none => pure (.ok (.empty 400))
      | some request => do
        let now ← clock
        let random := octets (← IO.getRandomBytes 32)
        r.change (Http.answer now random request)
    if let .ok response := response then
      let _ ← outcome (← socket.send #[byteArray (Http.Wire.ofResponse response)])
  let _ ← outcome (← socket.shutdown)

/-- Sweeps the store from time to time. -/
partial def Running.sweep (r : Running) : IO Unit := do
  IO.sleep (UInt32.ofNat (Server.sweepSeconds * 1000))
  let now ← clock
  r.change fun site =>
    let (events, store) := Sweeper.sweepOnce now site.store
    ((), { site with store, log := site.log ++ events })
  r.sweep

/-- Accepts connections until the program is told to stop. -/
partial def Running.accept (r : Running) (socket : TCP.Socket) (stop : Task Unit) : IO Unit := do
  let accepting := (← socket.accept).result?
  let next ← IO.waitAny
    [stop.map fun _ => none, accepting.map fun result => some result]
  match next with
  | none => return ()
  | some result =>
    if let some (.ok connection) := result then
      let _ ← IO.asTask (r.serve connection)
    r.accept socket stop

/-! ### Runs -/

def complain (complaint : Text) : IO UInt32 := do
  IO.eprintln (string complaint)
  return UInt32.ofNat Session.failure

/-- Serves a launched site until the program is told to stop. -/
def serve (options : CommandLine.Options) (filter : LogFilter) (c : Config)
    (site : Http.Site Storage) (socket : TCP.Socket) : IO UInt32 := do
  save c site
  let r : Running :=
    { config := c, format := options.logFormat, filter, site := ← Std.Mutex.new site }
  let interrupt ← Signal.mk 2 false
  let stop := (← interrupt.next).result?.map fun _ => ()
  let _ ← IO.asTask r.sweep
  r.accept socket stop
  print r.format filter [.stopping, .stopped]
  return UInt32.ofNat Session.success

def run (options : CommandLine.Options) (filter : LogFilter) : IO UInt32 := do
  let now ← clock
  let disk ← diskOf options.config.toList
  match Server.configured options.config options.overrides
      { clock := now, disk, canBind := fun _ => false } with
  | (.ok c, _) =>
    let disk ← diskOf [c.storeFile]
    let socket ←
      match (c.validate (disk.isFile c.storePath)), c.socketAddress with
      | .ok _, .ok address => bind? address
      | _, _ => pure none
    let (launched, host) :=
      Server.launch c { clock := now, disk, canBind := fun _ => socket.isSome }
    print options.logFormat filter host.log
    match launched, socket with
    | .ok listener, some socket =>
      if !c.inMemory then IO.FS.createDirAll (string (Server.directoryOf c))
      serve options filter c listener.site socket
    | .error e, _ => complain (Session.complaintOf e)
    | _, _ => return UInt32.ofNat Session.aborted
  | (.error e, _) => complain (Session.complaintOf e)
  | (.abort, _) => return UInt32.ofNat Session.aborted

end DeadDrop.Main

def main (arguments : List String) : IO UInt32 := do
  let names := DeadDrop.CommandLine.OptionName.all.map fun name => name.variable
  let mut found : List (DeadDrop.Text × DeadDrop.Text) := []
  for name in names do
    if let some value ← IO.getEnv (String.ofList name) then
      found := (name, value.toList) :: found
  let given := found
  let environment (name : DeadDrop.Text) : Option DeadDrop.Text :=
    (given.find? fun entry => decide (entry.1 = name)).map Prod.snd
  match DeadDrop.CommandLine.read (arguments.map String.toList) environment with
  | .version =>
    IO.print (String.ofList DeadDrop.CommandLine.versionText)
    return UInt32.ofNat DeadDrop.Session.success
  | .help =>
    IO.print (String.ofList DeadDrop.CommandLine.helpText)
    return UInt32.ofNat DeadDrop.Session.success
  | .usage =>
    IO.eprint (String.ofList DeadDrop.CommandLine.helpText)
    return UInt32.ofNat DeadDrop.Session.wrongUsage
  | .run options =>
    let setting := (← IO.getEnv "RUST_LOG").map String.toList
    DeadDrop.Main.run options (.ofSetting setting)
