import SqlDraft.Config.Reader
import SqlDraft.Json.Reader
import SqlDraft.Session.Call
import SqlDraft.Proofs.Lexical.Scanner
import SqlDraft.Proofs.Lexical.Numeral
import SqlDraft.Proofs.Lexical.Statement
import SqlDraft.Proofs.Condition.Resolved
import SqlDraft.Proofs.Session.Cache
import SqlDraft.Proofs.Session.Account
import SqlDraft.Proofs.Session.Injection
import SqlDraft.Proofs.Boolean.Grammar
import SqlDraft.Proofs.Boolean.Meaning
import SqlDraft.Proofs.Boolean.Row
import SqlDraft.Proofs.Session.Where
import SqlDraft.Proofs.Projection.Source
import SqlDraft.Proofs.Registry.Reachable
import SqlDraft.Proofs.Session.Scope
import SqlDraft.Proofs.Session.Qualified
import SqlDraft.Proofs.Session.Projected
import SqlDraft.Proofs.Condition.Bare
import SqlDraft.Proofs.Condition.Fault
import SqlDraft.Proofs.Session.Answer
import SqlDraft.Proofs.Session.Interleaving
import SqlDraft.Proofs.Registry.Registration
import SqlDraft.Proofs.Session.Control
import SqlDraft.Proofs.Registry.Extension
import SqlDraft.Proofs.Session.Extension
import SqlDraft.Proofs.Json.Grammar
import SqlDraft.Proofs.Json.Numeral
import SqlDraft.Proofs.Registry.Order
import SqlDraft.Proofs.Session.Atomic
import SqlDraft.Proofs.Session.Confined
import SqlDraft.Proofs.Projection.Entry
import SqlDraft.Proofs.Session.Selected
import SqlDraft.Proofs.Json.Scanning
import SqlDraft.Proofs.Json.Reading
import SqlDraft.Proofs.Config.Reading
import SqlDraft.Proofs.Boolean.Combined
import SqlDraft.Proofs.Condition.Null
import SqlDraft.Proofs.Relationship.Swapped
import SqlDraft.Proofs.Session.Inferred
import SqlDraft.Proofs.Relationship.ForeignKey
import SqlDraft.Proofs.Relationship.Link
import SqlDraft.Proofs.Registry.Refusal
import SqlDraft.Proofs.Projection.Index
import SqlDraft.Proofs.Session.Ordering
import SqlDraft.Proofs.Json.Compact
import SqlDraft.Proofs.Session.Trail
import SqlDraft.Proofs.Lexical.Literal
import SqlDraft.Proofs.Lexical.Quoted
import SqlDraft.Proofs.Lexical.Clause
import SqlDraft.Proofs.Lexical.Paging
import SqlDraft.Proofs.Session.Paging
