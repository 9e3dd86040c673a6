/-
  SqlDraft.Json.Reader — the value of a JSON text. Of members of one name the last one
  counts; a text with an unpaired surrogate and a number beyond the greatest double have
  no value.
-/

import SqlDraft.Json.Basic
import SqlDraft.Json.Node

namespace SqlDraft.Json

mutual

def ofNode? : Node → Option Json
  | .null => some .null
  | .bool b => some (.bool b)
  | .number n => (Number.ofNumeral? n).map .number
  | .text t => t.map .text
  | .array items => (ofNodes? items).map .array
  | .object members => (ofMembers? members []).map .object

def ofNodes? : List Node → Option (List Json)
  | [] => some []
  | node :: rest => do
    let value ← ofNode? node
    let values ← ofNodes? rest
    return value :: values

/-- Adds the members to those that come before them. -/
def ofMembers? : List (Option String × Node) → List (String × Json) → Option (List (String × Json))
  | [], before => some before
  | (name, node) :: rest, before => do
    let name ← name
    let value ← ofNode? node
    ofMembers? rest (insertMember name value before)

end

def read? (text : String) : Option Json := (Node.read? text).bind ofNode?

end SqlDraft.Json
