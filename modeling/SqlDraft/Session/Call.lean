/-
  SqlDraft.Session.Call — what a session can be asked, what it answers, and runs of such
  calls.

  A call in place leaves a session behind in any case: after a failed join or filter the
  same one, after a projection the projected one, though its statement may fail. A chained
  call takes the session and gives it back only on success; after a failed one there is no
  session left, and every later call finds that.
-/

import SqlDraft.Session.Join
import SqlDraft.Session.Filter
import SqlDraft.Session.Projection
import SqlDraft.Session.Draft

namespace SqlDraft

inductive Call where
  | join (kind : JoinKind) (source target : ModelType) (on : Option Condition)
  | filter (op : LogicalOp) (predicate : Predicate)
  /-- Projects onto a shape and answers the statement. -/
  | selectInto (shape : ModelType)
  | statement
  | orderBy (column : ColumnRef) (direction : SortDirection)
  | limit (rows : Nat)
  | offset (rows : Nat)
  deriving Repr

inductive Reply where
  | done
  | statement (text : String)
  deriving DecidableEq, Repr

/-- What came of a call: an answer, the session after it, and what was logged meanwhile. -/
structure Outcome where
  result : Except QueryError Reply
  session : Session
  log : List LogRecord

namespace Session

/-- The outcome of a change that leaves the session alone when it fails. -/
def change (s : Session) : Except QueryError (Session × List LogRecord) → Outcome
  | .ok (t, log) => ⟨.ok .done, t, log⟩
  | .error e => ⟨.error e, s, []⟩

def selectInto (s : Session) (shape : ModelType) : Outcome :=
  match s.project shape with
  | .ok (t, log) => ⟨t.statement.map .statement, t, log⟩
  | .error e => ⟨.error e, s, []⟩

def perform (s : Session) : Call → Outcome
  | .join kind source target on => s.change (s.join kind source target on)
  | .filter op predicate => s.change (s.filter op predicate)
  | .selectInto shape => s.selectInto shape
  | .statement => ⟨s.statement.map .statement, s, []⟩
  | .orderBy column direction => ⟨.ok .done, s.orderBy column direction, []⟩
  | .limit rows => ⟨.ok .done, { s with limit := some rows }, []⟩
  | .offset rows => ⟨.ok .done, { s with offset := some rows }, []⟩

/-- The session after calls in place. -/
def run (s : Session) (calls : List Call) : Session := calls.foldl (fun s c => (s.perform c).session) s

end Session

structure Step where
  call : Call
  chained : Bool
  deriving Repr

inductive Refusal where
  | error (error : QueryError)
  /-- A chained call has failed before. -/
  | consumed
  deriving DecidableEq, Repr

/-- The outcome of a step, after which there may be no session. -/
structure StepOutcome where
  result : Except Refusal Reply
  session : Option Session
  log : List LogRecord

def Step.perform (step : Step) : Option Session → StepOutcome
  | none => ⟨.error .consumed, none, []⟩
  | some s =>
    let outcome := s.perform step.call
    match outcome.result with
    | .ok reply => ⟨.ok reply, some outcome.session, outcome.log⟩
    | .error e => ⟨.error (.error e), if step.chained then none else some outcome.session, outcome.log⟩

/-- The outcomes of steps taken one after the other. -/
def Step.performAll : Option Session → List Step → List StepOutcome
  | _, [] => []
  | s, step :: rest =>
    let outcome := step.perform s
    outcome :: performAll outcome.session rest

end SqlDraft
