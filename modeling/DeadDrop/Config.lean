import DeadDrop.Net.Address
import DeadDrop.Path
import DeadDrop.Text.Utf8
import DeadDrop.Time.Duration
import DeadDrop.Toml.Document

/-!
# Configuration

The settings of a server come in three layers: defaults, a file, and overrides from the command
line. Each layer replaces what it names and leaves the rest. A configuration can be read whatever
its values are; validation then lists everything that is wrong with it, and everything that is
merely unwise.
-/

namespace DeadDrop

structure Config where
  port : Nat
  bind : Text
  /-- The directory that holds the store. -/
  storePath : Text
  /-- How long a record is kept after its last write. -/
  persistFor : Text
  /-- The greatest declared size of a request, in bytes. -/
  maxRequestSize : Nat
  /-- Requests per second and client. -/
  perSecond : Binary64
  /-- Requests that a client may send at once. -/
  burst : Nat
  /-- Whether records are kept in memory only. -/
  inMemory : Bool
  deriving DecidableEq, Repr

structure Overrides where
  port : Option Nat := none
  bind : Option Text := none
  storePath : Option Text := none
  persistFor : Option Text := none
  inMemory : Bool := false
  deriving DecidableEq, Repr

inductive ConfigError where
  | unreadable (path : Text)
  | unparsable (path : Text)
  deriving DecidableEq, Repr

def ConfigError.message : ConfigError → Text
  | .unreadable path => "Failed to read config file: ".toList ++ path
  | .unparsable path => "Failed to parse config file: ".toList ++ path

namespace Config

def defaults : Config where
  port := 8080
  bind := "0.0.0.0".toList
  storePath := "./data".toList
  persistFor := "24h".toList
  maxRequestSize := 10240
  perSecond := .ofInt 10
  burst := 5
  inMemory := false

def isDefault (c : Config) : Bool :=
  Path.shape c.storePath = Path.shape defaults.storePath &&
    { c with storePath := defaults.storePath } = defaults

/-! ### Files -/

/-- An integer from zero up to, but not including, a limit. -/
def natBelow? (limit : Nat) : Toml.Scalar → Option Nat
  | .integer (.ofNat n) => if n < limit then some n else none
  | _ => none

def text? : Toml.Scalar → Option Text
  | .string t => some t
  | _ => none

def flag? : Toml.Scalar → Option Bool
  | .boolean b => some b
  | _ => none

/-- A number; an integer counts as one if it fits 64 bits, with a sign or without. -/
def number? : Toml.Scalar → Option Binary64
  | .float x => some x
  | .integer n => if -(UInt64.size / 2) ≤ n ∧ n < UInt64.size then some (.ofInt n) else none
  | _ => none

def set? (c : Config) (key : Text) (value : Toml.Scalar) : Option Config :=
  match String.ofList key with
  | "port" => (natBelow? UInt16.size value).map fun port => { c with port }
  | "bind" => (text? value).map fun bind => { c with bind }
  | "store_path" => (text? value).map fun storePath => { c with storePath }
  | "persist_for" => (text? value).map fun persistFor => { c with persistFor }
  | "max_request_size" => (natBelow? UInt64.size value).map fun maxRequestSize =>
    { c with maxRequestSize }
  | "rate_limit_per_second" => (number? value).map fun perSecond => { c with perSecond }
  | "rate_limit_burst" => (natBelow? UInt32.size value).map fun burst => { c with burst }
  | "in_memory" => (flag? value).map fun inMemory => { c with inMemory }
  | _ => none

/-- The configuration that a document denotes: the defaults with its settings. -/
def ofToml? (t : Text) : Option Config :=
  (Toml.settings? t).bind fun settings =>
    settings.foldlM (fun c entry => c.set? entry.1 entry.2) defaults

/-- The configuration in a file, whose content is given if it could be read. -/
def ofFile (path : Text) (content : Option Bytes) : Except ConfigError Config :=
  match content.bind Text.ofUtf8? with
  | none => .error (.unreadable path)
  | some t =>
    match ofToml? t with
    | none => .error (.unparsable path)
    | some c => .ok c

def overriddenBy (c : Config) (o : Overrides) : Config :=
  { c with
    port := o.port.getD c.port
    bind := o.bind.getD c.bind
    storePath := o.storePath.getD c.storePath
    persistFor := o.persistFor.getD c.persistFor
    inMemory := o.inMemory || c.inMemory }

/-- The configuration of all layers. The file is given by its path and what could be read of it. -/
def resolve (file : Option (Text × Option Bytes)) (o : Overrides) : Except ConfigError Config :=
  match file with
  | none => .ok (defaults.overriddenBy o)
  | some (path, content) => (ofFile path content).map fun c => c.overriddenBy o

/-! ### What the settings mean -/

structure RetentionError where
  text : Text
  cause : Duration.ParseError
  deriving DecidableEq, Repr

def RetentionError.message (e : RetentionError) : Text :=
  "Invalid persist_for value '".toList ++ e.text ++ "': ".toList ++ e.cause.message

def retention (c : Config) : Except RetentionError Nat :=
  match Duration.parse c.persistFor with
  | .error cause => .error { text := c.persistFor, cause }
  | .ok seconds => .ok seconds

/-- The name of the file that holds the store. -/
def storeFileName : Text := "values.redb".toList

def storeFile (c : Config) : Text := Path.join c.storePath storeFileName

/-- The wording for a bind address that is no address. -/
def badAddressMessage (bind : Text) : Text :=
  "Invalid bind address '".toList ++ bind ++ "': invalid IP address syntax".toList

/-- The address to listen on, or the wording for one that is no address. -/
def socketAddress (c : Config) : Except Text SocketAddress :=
  match IPAddress.ofText? c.bind with
  | some ip => .ok { ip, port := c.port, scope := 0 }
  | none => .error (badAddressMessage c.bind)

/-! ### Validation -/

/-- Retention times below this many seconds are unwise. -/
def shortRetention : Nat := 60

/-- Ports below this one are for privileged programs. -/
def firstFreePort : Nat := 1024

/-- What is wrong with a configuration, in the order of its settings. -/
def problems (c : Config) (storeIsFile : Bool) : List Text :=
  (if c.port = 0 then
    [("Server port cannot be 0. Use a valid port number (1-65535)\n" ++
      "  Common ports: 8080 (default), 8000, 3000").toList] else []) ++
  (match c.socketAddress with
    | .error message => [message]
    | .ok _ => []) ++
  (match c.retention with
    | .error e => [e.message]
    | .ok _ => []) ++
  (if c.maxRequestSize = 0 then ["max_request_size cannot be 0".toList] else []) ++
  (if c.perSecond.isPositive then []
    else ["rate_limit_per_second must be a positive number (got: ".toList ++
      c.perSecond.toText ++ [')']]) ++
  (if c.burst = 0 then ["rate_limit_burst cannot be 0".toList] else []) ++
  (if !c.inMemory && storeIsFile then
    ["store_path is not a directory: ".toList ++ c.storePath] else [])

def warnings (c : Config) : List Text :=
  (if 0 < c.port ∧ c.port < firstFreePort then
    ["Server port ".toList ++ Text.ofNat c.port ++
      (" is a system/privileged port (< 1024)\n" ++
        "  Recommendation: Use ports >= 1024 (e.g., 8080) to avoid permission issues").toList]
    else []) ++
  (match c.retention with
    | .ok seconds =>
      if seconds < shortRetention then
        ["persist_for '".toList ++ c.persistFor ++ "' is very short (< ".toList ++
          Text.ofNat shortRetention ++
          "s)\n  Records will expire almost immediately after each write".toList]
      else []
    | .error _ => [])

def problemsMessage (problems : List Text) : Text :=
  "Configuration validation failed:\n  - ".toList ++ Text.join "\n  - ".toList problems

/-- Accepts a configuration without problems, with its warnings; or lists its problems. Whether the
store's path leads to a file has to be looked up beforehand. -/
def validate (c : Config) (storeIsFile : Bool) : Except (List Text) (List Text) :=
  if (c.problems storeIsFile).isEmpty then .ok c.warnings else .error (c.problems storeIsFile)

end Config

end DeadDrop
