/-
  SqlDraft.Log — what a session tells about its work.
-/

import SqlDraft.Sql.Statement

namespace SqlDraft

inductive LogLevel where
  | debug | trace
  deriving DecidableEq, Repr

def LogLevel.name : LogLevel → String
  | .debug => "DEBUG"
  | .trace => "TRACE"

inductive LogRecord where
  | joined (kind : JoinKind) (target source : String)
  /-- The WHERE text after a fragment has been added. -/
  | filtered (text : String)
  | projectionReused (shape : String)
  /-- No participating table declares the field. -/
  | fieldFromBase (field base : String)
  | projected (count : Nat) (shape : String)
  deriving DecidableEq, Repr

namespace LogRecord

def level : LogRecord → LogLevel
  | .joined .. | .projected .. => .debug
  | .filtered .. | .projectionReused .. | .fieldFromBase .. => .trace

def message : LogRecord → String
  | .joined kind target source => kind.keywords ++ " " ++ target ++ " (from " ++ source ++ ")"
  | .filtered text => "WHERE now: " ++ text
  | .projectionReused shape => "reusing projection for " ++ shape
  | .fieldFromBase field base => field ++ " not found in joined tables, reading from " ++ base
  | .projected count shape => "projecting " ++ toString count ++ " fields into " ++ shape

end LogRecord

end SqlDraft
