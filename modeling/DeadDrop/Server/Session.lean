import DeadDrop.CommandLine
import DeadDrop.Server.Launch

/-!
# Sessions

A run of the program from its command line to its end. The events of a run are shown through a
filter, and a launch that fails is complained about with its headline.
-/

namespace DeadDrop

/-- How a run ends: with which exit code, what is complained about, which events were shown, and
whether requests could be answered on the way. -/
structure Session where
  exitCode : Nat
  complaint : Option Text
  log : List LogEvent
  listened : Bool
  deriving DecidableEq, Repr

namespace Session

/-- The exit code of a run that ends as it should. -/
def success : Nat := 0

/-- The exit code of a run that fails. -/
def failure : Nat := 1

/-- The exit code of a wrong command line. -/
def wrongUsage : Nat := 2

/-- The exit code of a run that aborts. -/
def aborted : Nat := 101

def complaintOf (e : LaunchError) : Text := "Error: ".toList ++ e.headline

def short (exitCode : Nat) : Session :=
  { exitCode, complaint := none, log := [], listened := false }

def launchOf (options : CommandLine.Options) : Action Host LaunchError Listener := do
  let c ← Server.configured options.config options.overrides
  Server.launch c

/-- The run of a launched server that is told to stop. -/
def ofOptions (filter : LogFilter) (host : Host) (options : CommandLine.Options) : Session :=
  match launchOf options host with
  | (.ok _, host) =>
    { exitCode := success, complaint := none, listened := true
      log := (host.log ++ [LogEvent.stopping, LogEvent.stopped]).filter filter.shows }
  | (.error e, host) =>
    { exitCode := failure, complaint := some (complaintOf e), listened := false
      log := host.log.filter filter.shows }
  | (.abort, host) =>
    { exitCode := aborted, complaint := none, listened := false
      log := host.log.filter filter.shows }

def ofRequest (filter : LogFilter) (host : Host) : CommandLine.Request → Session
  | .help | .version => short success
  | .usage => short wrongUsage
  | .run options => ofOptions filter host options

end Session

end DeadDrop
