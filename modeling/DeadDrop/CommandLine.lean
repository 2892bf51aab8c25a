import DeadDrop.Config

/-!
# The command line

Options are read from left to right, and the first one that is wrong, or that asks for help or for
the version, ends the reading. An option takes its value from behind an equals sign or from the next
argument, which must not look like an option; none may be given twice. An option that is not given
takes its value from the environment, where the flag for memory only is spelt out.
-/

namespace DeadDrop.CommandLine

inductive OptionName where
  | config
  | port
  | bind
  | store
  | persistFor
  | inMemory
  | logFormat
  deriving DecidableEq, Repr

inductive LogFormat where
  | text
  | json
  deriving DecidableEq, Repr

structure Options where
  config : Option Text := none
  overrides : Overrides := {}
  logFormat : LogFormat := .text
  deriving DecidableEq, Repr

inductive Request where
  | help
  | version
  /-- The command line is wrong. -/
  | usage
  | run (options : Options)
  deriving DecidableEq, Repr

/-! ### Names -/

/-- All options, in the order in which the environment is asked. -/
def OptionName.all : List OptionName :=
  [.config, .port, .bind, .store, .persistFor, .inMemory, .logFormat]

def OptionName.word : OptionName → Text
  | .config => "config".toList
  | .port => "port".toList
  | .bind => "bind".toList
  | .store => "store".toList
  | .persistFor => "persist-values-for".toList
  | .inMemory => "in-memory".toList
  | .logFormat => "log-format".toList

/-- The environment variable that stands in for an option. -/
def OptionName.variable : OptionName → Text
  | .config => "EPHEMERAL_STORE_CONFIG".toList
  | .port => "EPHEMERAL_STORE_PORT".toList
  | .bind => "EPHEMERAL_STORE_BIND".toList
  | .store => "EPHEMERAL_STORE_PATH".toList
  | .persistFor => "EPHEMERAL_STORE_PERSIST_FOR".toList
  | .inMemory => "EPHEMERAL_STORE_IN_MEMORY".toList
  | .logFormat => "EPHEMERAL_STORE_LOG_FORMAT".toList

def OptionName.ofWord? (word : Text) : Option OptionName :=
  OptionName.all.find? fun name => decide (name.word = word)

/-! ### Values -/

/-- Reads a port: a decimal integer, with a sign or without, from 0 to 65535. -/
def port? (t : Text) : Option Nat :=
  let digits :=
    match t with
    | '+' :: rest => Text.toNat? rest
    | '-' :: rest => (Text.toNat? rest).bind fun n => if n = 0 then some 0 else none
    | t => Text.toNat? t
  digits.bind fun n => if n < UInt16.size then some n else none

def path? (t : Text) : Option Text := if t.isEmpty then none else some t

def flag? (t : Text) : Option Bool :=
  if t = "true".toList then some true else if t = "false".toList then some false else none

def logFormat? (t : Text) : Option LogFormat :=
  if t = "text".toList then some .text else if t = "json".toList then some .json else none

def Options.set? (options : Options) (name : OptionName) (value : Text) : Option Options :=
  let o := options.overrides
  match name with
  | .config => (path? value).map fun path => { options with config := some path }
  | .port => (port? value).map fun port => { options with overrides := { o with port := some port } }
  | .bind => some { options with overrides := { o with bind := some value } }
  | .store =>
    (path? value).map fun path => { options with overrides := { o with storePath := some path } }
  | .persistFor => some { options with overrides := { o with persistFor := some value } }
  | .inMemory =>
    (flag? value).map fun inMemory => { options with overrides := { o with inMemory } }
  | .logFormat => (logFormat? value).map fun logFormat => { options with logFormat }

/-! ### Arguments -/

/-- How far the arguments have been read: what has been set, by which options, and the option whose
value comes next. -/
structure Reader where
  options : Options := {}
  given : List OptionName := []
  pending : Option OptionName := none
  deriving DecidableEq, Repr

/-- Sets an option that has not been given so far; otherwise the command line is wrong. -/
def Reader.give (r : Reader) (name : OptionName) (value : Text) : Except Request Reader :=
  if name ∈ r.given then .error .usage
  else
    match r.options.set? name value with
    | none => .error .usage
    | some options => .ok { options, given := name :: r.given, pending := none }

def Reader.long (r : Reader) (argument : Text) : Except Request Reader :=
  let (word, value) := Text.cut '=' argument
  if word = "help".toList ∧ value.isNone then .error .help
  else if word = "version".toList ∧ value.isNone then .error .version
  else
    match OptionName.ofWord? word, value with
    | none, _ => .error .usage
    | some .inMemory, none => r.give .inMemory "true".toList
    | some .inMemory, some _ => .error .usage
    | some name, none => .ok { r with pending := some name }
    | some name, some value => r.give name value

/-- Reads an argument behind one hyphen, of which the first letter decides. -/
def short (argument : Text) : Request :=
  match argument with
  | 'h' :: _ => .help
  | 'V' :: _ => .version
  | _ => .usage

/-- Reads one argument. Behind an option without its value, an argument that looks like an option is
wrong. -/
def Reader.step (r : Reader) (argument : Text) : Except Request Reader :=
  match r.pending, argument with
  | some _, '-' :: _ :: _ => .error .usage
  | some name, value => r.give name value
  | none, '-' :: '-' :: rest => r.long rest
  | none, '-' :: c :: rest => .error (short (c :: rest))
  | none, _ => .error .usage

/-- Reads the arguments. Behind two hyphens on their own nothing may follow. -/
def Reader.arguments (r : Reader) : List Text → Except Request Reader
  | [] => if r.pending.isSome then .error .usage else .ok r
  | argument :: rest =>
    if argument = ['-', '-'] then
      if r.pending.isSome || !rest.isEmpty then .error .usage else .ok r
    else
      match r.step argument with
      | .error request => .error request
      | .ok r => r.arguments rest

/-- Sets the options that have not been given from the environment. -/
def Reader.environment (environment : Text → Option Text) (r : Reader) : Except Request Reader :=
  OptionName.all.foldlM
    (fun r name =>
      if name ∈ r.given then .ok r
      else
        match environment name.variable with
        | none => .ok r
        | some value => r.give name value)
    r

def read (arguments : List Text) (environment : Text → Option Text) : Request :=
  match (Reader.arguments {} arguments).bind (Reader.environment environment) with
  | .error request => request
  | .ok r => .run r.options

/-- What is printed for the version. -/
def versionText : Text := "ephemeral-store 0.0.0\n".toList

def OptionName.help : OptionName → Text
  | .config => "<FILE>  TOML configuration file".toList
  | .port => "<PORT>  port to listen on".toList
  | .bind => "<ADDRESS>  address to bind".toList
  | .store => "<DIRECTORY>  directory that holds the store".toList
  | .persistFor => "<TIME>  retention after the last write, as 24h, 90m or 1h30m".toList
  | .inMemory => "  keep records in memory only".toList
  | .logFormat => "<text|json>  how log events are written".toList

/-- What is printed for help: a line for each option, with the environment variable that stands in
for it. -/
def helpText : Text :=
  "Usage: ephemeral-store [OPTIONS]\n\n".toList ++ OptionName.all.flatMap fun name =>
    "  --".toList ++ name.word ++ ' ' :: name.help ++ " [".toList ++ name.variable ++ "]\n".toList

end DeadDrop.CommandLine
