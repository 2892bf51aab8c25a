import DeadDrop.Json.Object
import DeadDrop.Log
import DeadDrop.Binary64.Text
import DeadDrop.Time.Moment

/-!
# Log lines

An event as a line of the log, for people or as JSON. The message is the first of an event's fields.
-/

namespace DeadDrop

def LogLevel.name : LogLevel → Text
  | .info => "INFO".toList
  | .warn => "WARN".toList
  | .error => "ERROR".toList

def LogValue.toText : LogValue → Text
  | .text t => t
  | .number n => Text.ofNat n
  | .float x => x.toFullText
  | .flag b => if b then "true".toList else "false".toList

def LogValue.toJson : LogValue → Text
  | .text t => Json.quote t
  | value => value.toText

namespace LogEvent

def toJson (moment : Moment) (event : LogEvent) : Text :=
  Json.object [
    ("timestamp".toList, Json.quote moment.toText),
    ("level".toList, Json.quote event.level.name),
    ("fields".toList, Json.object (("message".toList, Json.quote event.message) ::
      event.fields.map fun (name, value) => (name, value.toJson))),
    ("target".toList, Json.quote event.target)]

def toLine (moment : Moment) (event : LogEvent) : Text :=
  moment.toText ++ ' ' :: event.level.name ++ ' ' :: event.target ++ ": ".toList ++
    event.message ++
    event.fields.flatMap fun (name, value) => ' ' :: name ++ '=' :: value.toText

end LogEvent

end DeadDrop
