import UserDirectory.Json.Value
import UserDirectory.Telemetry.Note
/-!
# Lines of the log as text

A line is a JSON object: its level, and its fields with the sentence before them.
-/

namespace UserDirectory.Telemetry

open UserDirectory.Text

/-- A field as a JSON value; fractions are written with three places. -/
def FieldValue.toJson : FieldValue → Json.Value
  | int n => .int n
  | bool b => .bool b
  | text s => .string s
  | float x => .string (String.ofList (Fixed.write 3 x))

/-- A note as a JSON value. -/
def Note.toJson (n : Note) : Json.Value :=
  .object
    [("level", .string n.level.name),
     ("fields", .object
       (("message", .string n.message) :: n.fields.map fun f => (f.1, f.2.toJson)))]

/-- The line of a note. -/
def Note.line (n : Note) : String := n.toJson.text

end UserDirectory.Telemetry
