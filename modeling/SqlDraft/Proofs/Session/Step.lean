/-
  SqlDraft.Proofs.Session.Step — what one call leaves of a session.

  Of a call it depends on the registry, on the base and on whether columns are qualified if
  it does something: which join it makes (`joined?`), which fragment it adds (`filter?`),
  which shape it projects onto (`shape?`). The other calls always do what they say.

  - `session_perform`: the session after a call, part by part (`after`). A call adds to the
    end of a part or replaces it, and a failed one leaves everything as it was. Registry,
    dialect, separator and base stay.
  - `run_induction`: what holds at the start and is kept by every call holds after any run.
-/

import SqlDraft.Proofs.Success
import SqlDraft.Session.Call

namespace SqlDraft

/-- A join that was made: the models it brought in and the clause it added. -/
structure Joined where
  source : Model
  target : Model
  clause : JoinClause
  deriving Repr

/-- The join that is asked for, or why it cannot be made. -/
def Joined.make (r : Registry) (kind : JoinKind) (source target : ModelType) (on : Option Condition) :
    Except QueryError Joined := do
  let sourceModel ← r.require source
  let targetModel ← r.require target
  let condition ← JoinCondition.make r sourceModel targetModel on
  return ⟨sourceModel, targetModel, ⟨kind, targetModel.name, condition⟩⟩

namespace Call

def joined? (r : Registry) : Call → Option Joined
  | .join kind source target on => (Joined.make r kind source target on).toOption
  | _ => none

def filter? (r : Registry) (qualified : Bool) : Call → Option Filter
  | .filter op p => (p.resolve r qualified).toOption.map (⟨op, ·⟩)
  | _ => none

/-- The base without qualified columns is its own projection, so it is no shape to be
    projected onto. -/
def shape? (r : Registry) (base : Model) (qualified : Bool) : Call → Option Model
  | .selectInto shape => if shape = base.type ∧ qualified = false then none else r.model? shape
  | _ => none

def orderTerm? : Call → Option OrderTerm
  | .orderBy column direction => some ⟨column, direction⟩
  | _ => none

def limit? : Call → Option Nat
  | .limit rows => some rows
  | _ => none

def offset? : Call → Option Nat
  | .offset rows => some rows
  | _ => none

end Call

/-- The tables after a join, given those before it. -/
def Joined.extend (tables : List Model) (j : Joined) : List Model := addTable (addTable tables j.source) j.target

namespace Session

theorem start_eq_ok {r : Registry} {base : ModelType} {c : Config} {s : Session} :
    Session.start r base c = .ok s ↔ Config.isSeparator c.separator = true ∧ ∃ m, r.model? base = some m ∧
      s = { registry := r, dialect := c.dialect, separator := c.separator, base := m, qualified := c.qualified } := by
  unfold Session.start Config.check Registry.require
  by_cases hc : Config.isSeparator c.separator = true
  · cases r.model? base <;> simp [hc, bind, Except.bind, pure, Except.pure, eq_comm]
  · simp [hc, bind, Except.bind]

theorem model?_of_start {r : Registry} {base : ModelType} {c : Config} {s : Session}
    (h : Session.start r base c = .ok s) : r.model? base = some s.base := by
  obtain ⟨-, m, hm, rfl⟩ := start_eq_ok.mp h
  exact hm

/-! ## The session after a call -/

/-- The SELECT list for a shape, as it is kept or else built now. -/
def projected (s : Session) (shape : Model) : List SelectItem :=
  (s.cached? shape.type s.tablesWithBase.length).getD (projectionItems s.base s.tablesWithBase shape)

/-- The kept SELECT lists, among them the one for a shape and the tables of the moment. -/
def keeping (s : Session) (shape : Model) : List CachedProjection :=
  match s.cached? shape.type s.tablesWithBase.length with
  | some _ => s.cache
  | none => ⟨shape.type, s.tablesWithBase.length, s.projected shape⟩ :: s.cache

def after (s : Session) (c : Call) : Session :=
  let joined := c.joined? s.registry
  let shape := c.shape? s.registry s.base s.qualified
  { s with
    qualified := s.qualified || joined.isSome
    tables := (joined.map (·.extend s.tablesWithBase)).getD (if shape.isSome then s.tablesWithBase else s.tables)
    joins := s.joins ++ (joined.map (·.clause)).toList
    filters := s.filters ++ (c.filter? s.registry s.qualified).toList
    projection := (shape.map s.projected).or s.projection
    cache := (shape.map s.keeping).getD s.cache
    ordering := s.ordering ++ c.orderTerm?.toList
    limit := c.limit?.or s.limit
    offset := c.offset?.or s.offset }

theorem join_eq (s : Session) (kind : JoinKind) (source target : ModelType) (on : Option Condition) :
    s.join kind source target on = (Joined.make s.registry kind source target on).map fun j =>
      ({ s with qualified := true, tables := j.extend s.tablesWithBase, joins := s.joins ++ [j.clause] },
        [.joined kind j.target.name j.source.name]) := by
  unfold Session.join Joined.make
  cases s.registry.require source with
  | error e => rfl
  | ok sourceModel =>
    cases s.registry.require target with
    | error e => rfl
    | ok targetModel =>
      simp only [bind, Except.bind]
      cases JoinCondition.make s.registry sourceModel targetModel on <;> rfl

theorem session_join (s : Session) (kind : JoinKind) (source target : ModelType) (on : Option Condition) :
    (s.perform (.join kind source target on)).session = s.after (.join kind source target on) := by
  simp only [perform, join_eq, after, Call.joined?, Call.shape?, Call.filter?, Call.orderTerm?, Call.limit?,
    Call.offset?]
  cases Joined.make s.registry kind source target on <;> simp [Except.map, Except.toOption, change]

theorem session_filter (s : Session) (op : LogicalOp) (p : Predicate) :
    (s.perform (.filter op p)).session = s.after (.filter op p) := by
  simp only [perform, Session.filter, after, Call.joined?, Call.shape?, Call.filter?, Call.orderTerm?, Call.limit?,
    Call.offset?]
  cases p.resolve s.registry s.qualified <;> simp [bind, Except.bind, pure, Except.pure, Except.toOption, change]

/-- A projection sets the tables, the list and the kept lists. -/
theorem project_eq (s : Session) (shape : ModelType) :
    s.project shape =
      if shape = s.base.type ∧ s.qualified = false then .ok (s, [])
      else (s.registry.require shape).map fun model =>
        ({ s with tables := s.tablesWithBase, projection := some (s.projected model), cache := s.keeping model },
          match s.cached? shape s.tablesWithBase.length with
          | some _ => [.projectionReused model.name]
          | none => projectionNotes s.base s.tablesWithBase model ++ [.projected (s.projected model).length model.name]) := by
  unfold project
  split
  · rfl
  · unfold Registry.require
    cases hm : s.registry.model? shape with
    | none => rfl
    | some model =>
      have ht : model.type = shape := Registry.type_of_model? hm
      simp only [bind, Except.bind, Except.map, projected, keeping, ht]
      cases s.cached? shape s.tablesWithBase.length with
      | none => rfl
      | some items => rfl

theorem session_selectInto (s : Session) (shape : ModelType) :
    (s.perform (.selectInto shape)).session = s.after (.selectInto shape) := by
  simp only [perform, selectInto, project_eq, after, Call.joined?, Call.shape?, Call.filter?, Call.orderTerm?,
    Call.limit?, Call.offset?]
  by_cases hbase : shape = s.base.type ∧ s.qualified = false
  · simp [if_pos hbase]
  · simp only [Registry.require, if_neg hbase]
    cases s.registry.model? shape <;> simp [Except.map]

theorem session_perform (s : Session) (c : Call) : (s.perform c).session = s.after c := by
  cases c with
  | join kind source target on => exact session_join s kind source target on
  | filter op p => exact session_filter s op p
  | selectInto shape => exact session_selectInto s shape
  | _ =>
    simp [perform, orderBy, after, Call.joined?, Call.shape?, Call.filter?, Call.orderTerm?, Call.limit?, Call.offset?]

/-! ## The participating tables -/

theorem addTable_ne_nil {tables : List Model} (h : tables ≠ []) (m : Model) : addTable tables m ≠ [] := by
  unfold addTable
  split
  · exact h
  · simp

theorem prefix_addTable (tables : List Model) (m : Model) : tables <+: addTable tables m := by
  unfold addTable
  split
  · exact List.prefix_rfl
  · exact List.prefix_append _ _

theorem prefix_extend (tables : List Model) (j : Joined) : tables <+: j.extend tables :=
  (prefix_addTable _ _).trans (prefix_addTable _ _)

theorem tablesWithBase_ne_nil (s : Session) : s.tablesWithBase ≠ [] := by
  unfold tablesWithBase
  split
  · simp
  · rename_i h
    simpa using h

/-- The base heads the tables from the start, so a projection adds none. -/
theorem tablesWithBase_after (s : Session) (c : Call) :
    (s.after c).tablesWithBase = ((c.joined? s.registry).map (·.extend s.tablesWithBase)).getD s.tablesWithBase := by
  have hne := tablesWithBase_ne_nil s
  cases hj : c.joined? s.registry with
  | some j =>
    have : j.extend s.tablesWithBase ≠ [] := addTable_ne_nil (addTable_ne_nil hne _) _
    simp [after, tablesWithBase, hj] at this ⊢
    exact fun h => absurd h this
  | none =>
    simp only [after, hj, Option.map_none, Option.getD_none]
    split
    · simp only [tablesWithBase] at hne ⊢
      split <;> simp_all
    · rfl

/-! ## Runs -/

theorem run_concat (s : Session) (calls : List Call) (c : Call) :
    s.run (calls ++ [c]) = ((s.run calls).perform c).session := by
  simp [run]

theorem run_induction {s : Session} {motive : List Call → Session → Prop} (start : motive [] s)
    (step : ∀ calls t c, motive calls t → motive (calls ++ [c]) (t.after c)) (calls : List Call) :
    motive calls (s.run calls) := by
  suffices h : ∀ past t, motive past t → motive (past ++ calls) (t.run calls) from h [] s start
  induction calls with
  | nil => intro past t h; simpa [run] using h
  | cons c calls ih =>
    intro past t h
    have := ih (past ++ [c]) (t.after c) (step past t c h)
    simpa [run, session_perform] using this

/-- No call touches what a session was started with. -/
theorem run_frame (s : Session) (calls : List Call) :
    (s.run calls).registry = s.registry ∧ (s.run calls).dialect = s.dialect ∧
      (s.run calls).separator = s.separator ∧ (s.run calls).base = s.base := by
  refine run_induction (motive := fun _ t => t.registry = s.registry ∧ t.dialect = s.dialect ∧
    t.separator = s.separator ∧ t.base = s.base) ⟨rfl, rfl, rfl, rfl⟩ ?_ calls
  intro calls t c h
  exact h

end Session

/-! ## Authors and their books, for examples -/

namespace Library

def author : Model :=
  { type := ⟨"Author"⟩, name := "author", fields := [{ name := "id", isPrimaryKey := true }, { name := "name" }] }

def book : Model :=
  { type := ⟨"Book"⟩
    name := "book"
    fields := [{ name := "id", isPrimaryKey := true }, { name := "title" },
      { name := "authorId", references := some ⟨"Author"⟩ }] }

def registry : Registry := ⟨[author, book]⟩

def session : Session :=
  { registry, dialect := .sqlite, separator := " \n", base := author, qualified := false }

theorem start_registry : Session.start registry ⟨"Author"⟩ { dialect := .sqlite } = .ok session := rfl

end Library

end SqlDraft
