import DeadDrop.Log.Filter
import DeadDrop.Server.Start
import DeadDrop.Server.Sweeper

/-!
# Launching a server

What happens from a configuration to the moment at which the server listens: validation, the
announcement, the start of the site, and the binding of the address. Each step tells the log what it
does before it does it, and the first one that fails ends the launch.
-/

namespace DeadDrop

namespace LogEvent

def launching (level : LogLevel) (message : Text) (fields : List (Text × LogValue)) : LogEvent :=
  { level, target := serverTarget, message, fields }

def configWarning (warning : Text) : LogEvent := launching .warn warning []

/-- The event that announces a server with a configuration. -/
def starting (c : Config) : LogEvent :=
  launching .info "Starting ephemeral store".toList [
    ("port".toList, .number c.port), ("bind".toList, .text c.bind),
    ("persist_for".toList, .text c.persistFor), ("in_memory".toList, .flag c.inMemory),
    ("max_request_size".toList, .number c.maxRequestSize),
    ("rate_limit_per_second".toList, .float c.perSecond),
    ("rate_limit_burst".toList, .number c.burst)]

def opening (c : Config) : LogEvent :=
  if c.inMemory then
    launching .info "Using in-memory store; records are lost on exit".toList []
  else launching .info "Opening store".toList [("path".toList, .text c.storeFile)]

def listening (address : SocketAddress) : LogEvent :=
  launching .info "Listening".toList [("addr".toList, .text address.toText)]

def stopping : LogEvent := launching .info "Shutdown signal received".toList []

def stopped : LogEvent := launching .info "Server stopped".toList []

end LogEvent

inductive LaunchError where
  | config (e : ConfigError)
  | invalid (problems : List Text)
  | start (e : StartError)
  /-- The address to listen on is no address. -/
  | badAddress (bind : Text)
  /-- The address to listen on cannot be bound. -/
  | unbindable (address : SocketAddress)
  deriving DecidableEq, Repr

/-- What failed, in one line or, for a list of problems, several. -/
def LaunchError.headline : LaunchError → Text
  | .config e => e.message
  | .invalid problems => Config.problemsMessage problems
  | .start e => e.headline
  | .badAddress bind => "Invalid bind address '".toList ++ bind ++ ['\'']
  | .unbindable address => "Failed to bind ".toList ++ address.toText

/-- The machine that a server is launched on: its clocks, its disk, the addresses that may be bound,
and what the launch has told the log so far. -/
structure Host where
  clock : Clock
  disk : Disk
  canBind : SocketAddress → Bool
  log : List LogEvent := []

structure Listener where
  address : SocketAddress
  site : Http.Site Storage

namespace Server

/-- Seconds between two sweeps of a running server. -/
def sweepSeconds : Nat := 300

def tell (events : List LogEvent) : Action Host LaunchError Unit := fun host =>
  (.ok (), { host with log := host.log ++ events })

/-- Validates a configuration, and tells its warnings. -/
def validated (c : Config) : Action Host LaunchError Unit := fun host =>
  match c.validate (host.disk.isFile c.storePath) with
  | .error problems => (.error (.invalid problems), host)
  | .ok warnings => tell (warnings.map .configWarning) host

/-- Starts the site of a configuration on the host's disk. The opening of the store is told first,
once it is known how long records are kept. -/
def startSite (c : Config) : Action Host LaunchError (Http.Site Storage) := do
  if c.retention.isOk then tell [.opening c]
  fun host =>
    let (outcome, disk) := start host.clock c host.disk
    (outcome.mapError .start, { host with disk })

def bound (c : Config) : Action Host LaunchError SocketAddress := fun host =>
  match c.socketAddress with
  | .error _ => (.error (.badAddress c.bind), host)
  | .ok address =>
    if host.canBind address then (.ok address, host) else (.error (.unbindable address), host)

def launch (c : Config) : Action Host LaunchError Listener := do
  validated c
  tell [.starting c]
  let site ← startSite c
  let address ← bound c
  tell [.listening address]
  pure { address, site }

/-- The configuration of a file on the host's disk, if one is named, and of overrides. -/
def configured (file : Option Text) (overrides : Overrides) : Action Host LaunchError Config :=
  fun host =>
    match Config.resolve (file.map fun path => (path, host.disk.read? path)) overrides with
    | .error e => (.error (.config e), host)
    | .ok c => (.ok c, host)

end Server

end DeadDrop
