/-
  SqlDraft.Sql.Literal — values as SQL literals. An array or an object is a string that
  holds its compact JSON text.
-/

import SqlDraft.Text.Quoted
import SqlDraft.Json.Printer

namespace SqlDraft

def Text.apostrophes : Text.Marks := ⟨'\'', '\''⟩

/-- The literal of a value. -/
def Json.literal : Json → String
  | .null => "NULL"
  | .bool true => "TRUE"
  | .bool false => "FALSE"
  | .number n => String.ofList n.spell
  | .text t => Text.apostrophes.quote t
  | value => Text.apostrophes.quote value.compact

end SqlDraft
