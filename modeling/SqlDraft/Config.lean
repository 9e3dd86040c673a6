/-
  SqlDraft.Config — how a session drafts its statement.
-/

import SqlDraft.Error
import SqlDraft.Dialect
import SqlDraft.Text.Blank

namespace SqlDraft

structure Config where
  dialect : Dialect := .plain
  /-- Whether columns are qualified from the start, before any join. -/
  qualified : Bool := false
  /-- What stands between the SELECT, FROM and WHERE sections. -/
  separator : String := " \n"
  deriving DecidableEq, Repr

namespace Config

/-- A separator is not empty and all of it is blank, so it joins no two words. -/
def isSeparator (text : String) : Bool := !text.isEmpty && text.toList.all Text.isBlank

/-- The configuration itself, if its separator is one. -/
def check (c : Config) : Except QueryError Config :=
  if isSeparator c.separator then .ok c else .error (.separator c.separator)

end Config

end SqlDraft
