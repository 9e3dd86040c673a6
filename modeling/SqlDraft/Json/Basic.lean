/-
  SqlDraft.Json.Basic — JSON values. The members of an object stand in the order of
  their names by code point, each name once (`Json.insertMember`).
-/

import SqlDraft.Json.Number

namespace SqlDraft

inductive Json where
  | null
  | bool (value : Bool)
  | number (value : Number)
  | text (value : String)
  | array (items : List Json)
  | object (members : List (String × Json))
  deriving Repr

namespace Json

/-- Puts a member at its place; a member of that name gives way. -/
def insertMember (name : String) (value : Json) : List (String × Json) → List (String × Json)
  | [] => [(name, value)]
  | (n, v) :: rest =>
    if name < n then (name, value) :: (n, v) :: rest
    else if n = name then (name, value) :: rest
    else (n, v) :: insertMember name value rest

/-- The member of that name, if this is an object that has it. -/
def member? (json : Json) (name : String) : Option Json :=
  match json with
  | .object members => (members.find? fun m => m.1 = name).map (·.2)
  | _ => none

end Json

end SqlDraft
