import HttpRelay.Http.HeaderBlocks
import HttpRelay.Text.Json

namespace HttpRelay

structure Snapshot where
  status : UInt16
  groups : List Fields
  body : String
deriving DecidableEq, Repr

namespace Snapshot

/-- The first value of a header of the response itself, whose group comes last. -/
def header? (s : Snapshot) (name : String) : Option String :=
  s.groups.getLast?.bind fun group => group.first? name

def groupJson (group : Fields) : Json.Value :=
  .array (group.map fun (name, value) => .array [.string name, .string value])

def json (s : Snapshot) : Json.Value :=
  .object [("status_code", .number s.status.toNat),
    ("header_groups", .array (s.groups.map groupJson)), ("body", .string s.body)]

def text (s : Snapshot) : String := Json.pretty 0 s.json

end Snapshot

end HttpRelay
