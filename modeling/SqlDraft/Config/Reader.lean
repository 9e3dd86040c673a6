/-
  SqlDraft.Config.Reader — configurations as JSON text: an object of the fields in any order,
  each at most once, or an array of the first of them in the order of declaration. A field
  that is not given has its default; members of other names are passed over, whatever they
  hold. The separator is looked at only after the whole text has been read.
-/

import SqlDraft.Config
import SqlDraft.Json.Node

namespace SqlDraft

/-- A dialect is its name, or an object with that one name and null. -/
def Dialect.ofNode? : Json.Node → Option Dialect
  | .text (some name) => Dialect.ofName? name
  | .object [(some name, .null)] => Dialect.ofName? name
  | _ => none

namespace Config

/-- The fields that a text has given so far. -/
structure Given where
  dialect : Option Dialect := none
  qualified : Option Bool := none
  separator : Option String := none
  deriving DecidableEq, Repr

namespace Given

def addDialect (g : Given) (node : Json.Node) : Option Given :=
  match g.dialect with
  | some _ => none
  | none => (Dialect.ofNode? node).map fun d => { g with dialect := some d }

def addQualified (g : Given) (node : Json.Node) : Option Given :=
  match g.qualified, node with
  | none, .bool b => some { g with qualified := some b }
  | _, _ => none

def addSeparator (g : Given) (node : Json.Node) : Option Given :=
  match g.separator, node with
  | none, .text (some t) => some { g with separator := some t }
  | _, _ => none

/-- The names of the fields in the order of declaration. -/
def names : List String := ["dialect", "prefix_field_with_table_name", "separator"]

def add (g : Given) (name : Option String) (node : Json.Node) : Option Given :=
  match name with
  | none => none
  | some n =>
    if n = "dialect" then g.addDialect node
    else if n = "prefix_field_with_table_name" then g.addQualified node
    else if n = "separator" then g.addSeparator node
    else some g

def addAll (g : Given) : List (Option String × Json.Node) → Option Given
  | [] => some g
  | (name, node) :: rest => (g.add name node).bind (addAll · rest)

def config (g : Given) : Config :=
  let default : Config := {}
  { dialect := g.dialect.getD default.dialect
    qualified := g.qualified.getD default.qualified
    separator := g.separator.getD default.separator }

end Given

/-- The configuration that a tree describes, whatever its separator. -/
def ofNode? : Json.Node → Option Config
  | .object members => (Given.addAll {} members).map Given.config
  | .array items =>
    if items.length ≤ Given.names.length then
      (Given.addAll {} ((Given.names.map some).zip items)).map Given.config
    else none
  | _ => none

def read (text : String) : Except QueryError Config :=
  match (Json.Node.read? text).bind ofNode? with
  | some c => c.check
  | none => .error .malformedConfig

end Config

end SqlDraft
