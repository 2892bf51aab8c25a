import DeadDrop.Record.Basic
import DeadDrop.Text.Utf8
import DeadDrop.Json.Token

/-!
# The stored form of records

A record is stored as compact JSON: an object for every mapping, a string for every leaf. Reading
accepts any JSON text of objects and strings, in UTF-8, with its objects nested no deeper than a
limit; of a repeated name the last value counts. Writing has no such limit.
-/

namespace DeadDrop

/-! ### Writing -/

mutual

def Value.toJson : Value → Text
  | .leaf text => Json.quote text
  | .node fields => '\x7b' :: membersJson fields ++ ['\x7d']

/-- The members of an object with commas between them. -/
def membersJson : List (Text × Value) → Text
  | [] => []
  | (name, value) :: rest =>
    Json.quote name ++ ':' :: value.toJson ++
      (if rest.isEmpty then [] else ',' :: membersJson rest)

end

def Record.toJson (r : Record) : Text := (Value.node r.fields).toJson

def Record.toBytes (r : Record) : Bytes := r.toJson.toUtf8

/-- A field as plain text: a leaf as it is, a mapping as JSON. -/
def Value.toPlain : Value → Text
  | .leaf text => text
  | .node fields => (Value.node fields).toJson

/-! ### Reading

The reader is a machine with a stack. The object that is being read is kept beside the stack, and
the stack holds the objects around it, innermost first, each with the name whose value is under
way.
-/

namespace Record

/-- The greatest number of objects inside of one another, the root included. -/
def nestingLimit : Nat := 127

/-- An object that is under way: the fields read so far and the name whose value comes next. -/
structure Frame where
  record : Record
  name : Text

inductive Awaiting where
  /-- The first name of an object, or its end. -/
  | firstName
  /-- A name, behind a comma. -/
  | name
  /-- The colon behind a name. -/
  | colon (name : Text)
  /-- The value of a name. -/
  | value (name : Text)
  /-- A comma or the end of the object. -/
  | separator

inductive Reader where
  /-- Nothing has been read. -/
  | start
  /-- An object is open. -/
  | inside (stack : List Frame) (current : Record) (awaiting : Awaiting)
  /-- The outermost object has been closed. -/
  | finished (record : Record)

def close (current : Record) : List Frame → Reader
  | [] => .finished current
  | frame :: stack => .inside stack (frame.record.insertNode frame.name current) .separator

def Reader.step : Reader → Json.Token → Option Reader
  | .start, .opening => some (.inside [] empty .firstName)
  | .inside stack current .firstName, .closing => some (close current stack)
  | .inside stack current .firstName, .string name => some (.inside stack current (.colon name))
  | .inside stack current .name, .string name => some (.inside stack current (.colon name))
  | .inside stack current (.colon name), .colon => some (.inside stack current (.value name))
  | .inside stack current (.value name), .string text =>
    some (.inside stack (current.insertLeaf name text) .separator)
  | .inside stack current (.value name), .opening =>
    if stack.length + 2 ≤ nestingLimit then
      some (.inside ({ record := current, name } :: stack) empty .firstName)
    else none
  | .inside stack current .separator, .comma => some (.inside stack current .name)
  | .inside stack current .separator, .closing => some (close current stack)
  | _, _ => none

/-- Reads tokens to the end, where the outermost object has to be closed. -/
def Reader.run : Reader → List Json.Token → Option Record
  | .finished record, [] => some record
  | _, [] => none
  | reader, token :: rest => (reader.step token).bind fun next => next.run rest

def ofJson? (t : Text) : Option Record := (Json.lex t).bind Reader.start.run

def ofBytes? (b : Bytes) : Option Record := (Text.ofUtf8? b).bind ofJson?

end Record

end DeadDrop
