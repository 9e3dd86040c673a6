/-
  SqlDraft.Proofs.Session.Account — what a run of calls comes to, read off the calls alone.

  Only two things of the past have a say in what a call does: whether columns are qualified
  by then, and which tables take part. Both follow from the joins so far, and whether a join
  can be made is between the call and the registry. So every part of the statement is what
  the calls contribute to it, each of them looked at with the calls before it (`withPast`):

  - the joins, in order; a fragment for each filter, in the form of its own moment;
  - the SELECT list of the last projection that did something;
  - the ordering in full, the limit and the offset that were set last.

  `Account` says so of a session, `account_after` that a call keeps it, and `drafted_run`
  what it means for the texts and the answers.
-/

import SqlDraft.Proofs.Session.Cache
import SqlDraft.Proofs.Session.Join

namespace SqlDraft

/-! ## Contributions -/

/-- Each call with the calls before it. -/
def withPast (past : List Call) : List Call → List (List Call × Call)
  | [] => []
  | c :: cs => (past, c) :: withPast (past ++ [c]) cs

namespace Calls

def joined (r : Registry) (calls : List Call) : List Joined := calls.filterMap (·.joined? r)

/-- Whether columns are qualified after the calls, given whether they were before. -/
def qualified (r : Registry) (start : Bool) (calls : List Call) : Bool := start || !(joined r calls).isEmpty

/-- The tables that take part after the calls, the base first. -/
def tables (r : Registry) (base : Model) (calls : List Call) : List Model := (joined r calls).foldl Joined.extend [base]

def filters (r : Registry) (start : Bool) (calls : List Call) : List Filter :=
  (withPast [] calls).filterMap fun (past, c) => c.filter? r (qualified r start past)

/-- The SELECT lists of the projections. -/
def projections (r : Registry) (base : Model) (start : Bool) (calls : List Call) : List (List SelectItem) :=
  (withPast [] calls).filterMap fun (past, c) =>
    (c.shape? r base (qualified r start past)).map (projectionItems base (tables r base past))

/-- The last projection, or all fields of the base. -/
def items (r : Registry) (base : Model) (start : Bool) (calls : List Call) : List SelectItem :=
  (projections r base start calls).getLast?.getD (base.fields.map (base.selectItem (qualified r start calls)))

def ordering (calls : List Call) : List OrderTerm := calls.filterMap Call.orderTerm?

def limit (calls : List Call) : Option Nat := (calls.filterMap Call.limit?).getLast?

def offset (calls : List Call) : Option Nat := (calls.filterMap Call.offset?).getLast?

/-- The statement that the calls draft. -/
def draft (r : Registry) (base : Model) (start : Bool) (calls : List Call) : Except QueryError Statement :=
  ((ordering calls).mapM (OrderTerm.resolve r (qualified r start calls))).map fun keys =>
    { items := items r base start calls
      base := base.name
      joins := (joined r calls).map (·.clause)
      filters := filters r start calls
      ordering := keys
      limit := limit calls
      offset := offset calls }

end Calls

/-! ## One more call -/

theorem withPast_concat (past calls : List Call) (c : Call) :
    withPast past (calls ++ [c]) = withPast past calls ++ [(past ++ calls, c)] := by
  induction calls generalizing past with
  | nil => simp [withPast]
  | cons d calls ih => simp [withPast, ih]

theorem filterMap_concat {α β : Type} (f : α → Option β) (l : List α) (a : α) :
    (l ++ [a]).filterMap f = l.filterMap f ++ (f a).toList := by
  cases h : f a <;> simp [h]

theorem getLast?_append_toList {α : Type} (l : List α) (o : Option α) : (l ++ o.toList).getLast? = o.or l.getLast? := by
  cases o <;> simp

/-- The parts of a session are what the calls contribute. -/
structure Account (r : Registry) (base : Model) (start : Bool) (calls : List Call) (s : Session) : Prop where
  registry_eq : s.registry = r
  base_eq : s.base = base
  cacheSound : s.CacheSound
  joins_eq : s.joins = (Calls.joined r calls).map (·.clause)
  qualified_eq : s.qualified = Calls.qualified r start calls
  tables_eq : s.tablesWithBase = Calls.tables r base calls
  filters_eq : s.filters = Calls.filters r start calls
  projection_eq : s.projection = (Calls.projections r base start calls).getLast?
  ordering_eq : s.ordering = Calls.ordering calls
  limit_eq : s.limit = Calls.limit calls
  offset_eq : s.offset = Calls.offset calls

variable {r : Registry} {base : Model} {start : Bool} {calls : List Call} {s : Session}

/-- A list that is kept is the one that would be built, so the projection depends on the
    tables alone. -/
theorem Account.projected_eq (h : Account r base start calls s) {c : Call} {shape : Model}
    (hs : c.shape? s.registry s.base s.qualified = some shape) :
    s.projected shape = projectionItems base (Calls.tables r base calls) shape := by
  rw [Session.projected_eq h.cacheSound (Session.model?_of_shape? hs), h.base_eq, h.tables_eq]

theorem account_after (h : Account r base start calls s) (c : Call) :
    Account r base start (calls ++ [c]) (s.after c) where
  registry_eq := h.registry_eq
  base_eq := h.base_eq
  cacheSound := Session.cacheSound_after h.cacheSound c
  joins_eq := by
    show s.joins ++ _ = _
    rw [h.joins_eq, h.registry_eq]
    unfold Calls.joined
    rw [filterMap_concat, List.map_append]
    cases c.joined? r <;> rfl
  qualified_eq := by
    show (s.qualified || _) = _
    rw [h.qualified_eq, h.registry_eq]
    unfold Calls.qualified Calls.joined
    rw [filterMap_concat]
    cases c.joined? r <;> simp
  tables_eq := by
    rw [Session.tablesWithBase_after, h.tables_eq, h.registry_eq]
    unfold Calls.tables Calls.joined
    rw [filterMap_concat, List.foldl_append]
    cases c.joined? r <;> rfl
  filters_eq := by
    show s.filters ++ _ = _
    rw [h.filters_eq, h.registry_eq, h.qualified_eq]
    unfold Calls.filters
    rw [withPast_concat, filterMap_concat]
    rfl
  projection_eq := by
    have hmap : (c.shape? s.registry s.base s.qualified).map s.projected =
        (c.shape? s.registry s.base s.qualified).map (projectionItems base (Calls.tables r base calls)) := by
      cases hs : c.shape? s.registry s.base s.qualified with
      | none => rfl
      | some shape => exact congrArg some (h.projected_eq hs)
    show ((c.shape? s.registry s.base s.qualified).map s.projected).or s.projection = _
    rw [hmap, h.projection_eq, h.registry_eq, h.base_eq, h.qualified_eq]
    unfold Calls.projections
    rw [withPast_concat, filterMap_concat, getLast?_append_toList]
    rfl
  ordering_eq := by
    show s.ordering ++ _ = _
    rw [h.ordering_eq, Calls.ordering, Calls.ordering, filterMap_concat]
  limit_eq := by
    show c.limit?.or s.limit = _
    rw [h.limit_eq, Calls.limit, Calls.limit, filterMap_concat, getLast?_append_toList]
  offset_eq := by
    show c.offset?.or s.offset = _
    rw [h.offset_eq, Calls.offset, Calls.offset, filterMap_concat, getLast?_append_toList]

theorem account_run {type : ModelType} {c : Config} (h : Session.start r type c = .ok s) (calls : List Call) :
    Account r s.base c.qualified calls (s.run calls) := by
  obtain ⟨-, m, -, hs⟩ := Session.start_eq_ok.mp h
  refine Session.run_induction (motive := Account r s.base c.qualified) ?_ (fun _ _ c h => account_after h c) calls
  rw [hs]
  refine ⟨rfl, rfl, ?_, rfl, ?_, rfl, rfl, rfl, rfl, rfl, rfl⟩
  · intro e he
    cases he
  · simp [Calls.qualified, Calls.joined]

theorem items_eq (h : Account r base start calls s) : s.items = Calls.items r base start calls := by
  unfold Session.items Calls.items
  rw [h.projection_eq, h.base_eq, h.qualified_eq]

theorem draft_eq (h : Account r base start calls s) : s.draft = Calls.draft r base start calls := by
  unfold Session.draft Calls.draft
  rw [items_eq h, h.registry_eq, h.base_eq, h.joins_eq, h.qualified_eq, h.filters_eq, h.ordering_eq, h.limit_eq, h.offset_eq]
  cases (Calls.ordering calls).mapM (OrderTerm.resolve r (Calls.qualified r start calls)) <;> rfl

/-! ## Answers -/

/-- A join is answered just when it contributes. -/
theorem result_join_iff (s : Session) (kind : JoinKind) (source target : ModelType) (on : Option Condition) :
    (s.perform (.join kind source target on)).result = .ok .done ↔
      ((Call.join kind source target on).joined? s.registry).isSome = true := by
  simp only [Session.perform, Session.join_eq, Call.joined?]
  cases Joined.make s.registry kind source target on <;> simp [Except.map, Except.toOption, Session.change]

/-- A filter is answered just when it contributes. -/
theorem result_filter_iff (s : Session) (op : LogicalOp) (p : Predicate) :
    (s.perform (.filter op p)).result = .ok .done ↔
      ((Call.filter op p).filter? s.registry s.qualified).isSome = true := by
  simp only [Session.perform, Session.filter, Call.filter?]
  cases p.resolve s.registry s.qualified <;>
    simp [bind, Except.bind, pure, Except.pure, Except.toOption, Session.change]

theorem filter?_eq_some {qualified : Bool} {op : LogicalOp} {p : Predicate} {f : Filter}
    (h : (Call.filter op p).filter? r qualified = some f) :
    f.op = op ∧ p.condition.resolve r p.scope qualified = .ok f.fragment := by
  simp only [Call.filter?] at h
  cases hp : p.resolve r qualified with
  | error e => rw [hp] at h; cases h
  | ok fragment =>
    rw [hp] at h
    cases h
    exact ⟨rfl, Predicate.resolve_eq_ok hp⟩

/-! ## Every run -/

/-- A session whose answers and texts are those of the calls. -/
structure Drafted (r : Registry) (base : Model) (c : Config) (calls : List Call) (s : Session) : Prop where
  join_iff : ∀ kind source target on, (s.perform (.join kind source target on)).result = .ok .done ↔
    ((Call.join kind source target on).joined? r).isSome = true
  filter_iff : ∀ op p, (s.perform (.filter op p)).result = .ok .done ↔
    ((Call.filter op p).filter? r (Calls.qualified r c.qualified calls)).isSome = true
  from_eq : s.fromText = "FROM " ++ c.dialect.quote base.name ++ String.join ((Calls.joined r calls).map fun j =>
    " " ++ j.clause.kind.keywords ++ " " ++ c.dialect.quote j.target.name ++ "  ON " ++ j.clause.condition.render c.dialect)
  /-- The columns that tables are joined on are qualified, each with one of the two tables. -/
  joined_columns : ∀ j ∈ Calls.joined r calls, ∀ name ∈ j.clause.condition.columns,
    ∃ m f, (m = j.source ∨ m = j.target) ∧ f ∈ m.fields ∧ name = m.columnName true f
  where_eq : s.whereText =
    match (Calls.filters r c.qualified calls).dropWhile fun f => f.fragment.render c.dialect = "" with
    | [] => ""
    | f :: rest => f.fragment.render c.dialect ++
        String.join (rest.map fun g => " " ++ g.op.keyword ++ " " ++ g.fragment.render c.dialect)
  empty_iff : ∀ qualified op p f, (Call.filter op p).filter? r qualified = some f →
    (f.fragment.render c.dialect = "" ↔ p.condition = .raw "")
  select_eq : s.selectText = "SELECT " ++ ", ".intercalate ((Calls.items r base c.qualified calls).map (·.render c.dialect))
  /-- The ordering is looked up and spelled in the end. -/
  statement_eq : s.statement =
    ((Calls.ordering calls).mapM (OrderTerm.resolve r (Calls.qualified r c.qualified calls))).map fun keys =>
      s.selectText ++ c.separator ++ s.fromText ++
        (if s.whereText.isEmpty then "" else c.separator ++ "WHERE " ++ s.whereText) ++
        (if keys.isEmpty then "" else " ORDER BY " ++ ", ".intercalate (keys.map (·.render c.dialect))) ++
        c.dialect.paging (Calls.limit calls) (Calls.offset calls) (!keys.isEmpty)

theorem fromText_eq (h : Account r base start calls s) (d : Dialect) :
    fromText d base.name s.joins = "FROM " ++ d.quote base.name ++ String.join ((Calls.joined r calls).map fun j =>
      " " ++ j.clause.kind.keywords ++ " " ++ d.quote j.target.name ++ "  ON " ++ j.clause.condition.render d) := by
  unfold fromText
  rw [h.joins_eq, List.map_map]
  congr 2
  refine List.map_congr_left fun j hj => ?_
  obtain ⟨call, -, hcall⟩ := List.mem_filterMap.mp hj
  obtain ⟨kind, source, target, on, condition, -, -, -, -, hclause⟩ := joined?_eq_some hcall
  simp [JoinClause.render, hclause]

theorem statement_eq (h : Account r base start calls s) :
    s.statement = ((Calls.ordering calls).mapM (OrderTerm.resolve r (Calls.qualified r start calls))).map fun keys =>
      s.selectText ++ s.separator ++ s.fromText ++
        (if s.whereText.isEmpty then "" else s.separator ++ "WHERE " ++ s.whereText) ++
        (if keys.isEmpty then "" else " ORDER BY " ++ ", ".intercalate (keys.map (·.render s.dialect))) ++
        s.dialect.paging (Calls.limit calls) (Calls.offset calls) (!keys.isEmpty) := by
  unfold Session.statement Session.draft
  rw [h.ordering_eq, h.registry_eq, h.qualified_eq, ← h.limit_eq, ← h.offset_eq]
  cases (Calls.ordering calls).mapM (OrderTerm.resolve r (Calls.qualified r start calls)) <;> rfl

/-- After any run a session's texts are those that its calls come to, and so are its answers
    to the calls that change it. -/
theorem drafted_run {type : ModelType} {c : Config} (h : Session.start r type c = .ok s) (calls : List Call) :
    Drafted r s.base c calls (s.run calls) := by
  have hrun := account_run h calls
  obtain ⟨-, hdialect, hseparator, -⟩ := Session.run_frame s calls
  obtain ⟨-, m, -, hs⟩ := Session.start_eq_ok.mp h
  have hd : (s.run calls).dialect = c.dialect := by rw [hdialect, hs]
  have hsep : (s.run calls).separator = c.separator := by rw [hseparator, hs]
  constructor
  case join_iff =>
    intro kind source target on
    rw [result_join_iff, hrun.registry_eq]
  case filter_iff =>
    intro op p
    rw [result_filter_iff, hrun.registry_eq, hrun.qualified_eq]
  case from_eq =>
    unfold Session.fromText
    rw [hd, hrun.base_eq]
    exact fromText_eq hrun c.dialect
  case joined_columns =>
    intro j hj
    obtain ⟨call, -, hcall⟩ := List.mem_filterMap.mp hj
    exact columns_joined hcall
  case where_eq =>
    unfold Session.whereText
    rw [hd, hrun.filters_eq, whereText_eq]
    rfl
  case empty_iff =>
    intro qualified op p f hf
    rw [render_eq_empty_iff]
    exact resolve_eq_raw_iff (filter?_eq_some hf).2
  case select_eq =>
    unfold Session.selectText
    rw [hd, items_eq hrun]
    rfl
  case statement_eq =>
    have := statement_eq hrun
    rwa [hd, hsep] at this

/-- The target of the second join is unknown, so it contributes nothing. -/
theorem drafted_run_library :
    (Calls.joined Library.registry [.join .left ⟨"Author"⟩ ⟨"Book"⟩ none, .join .inner ⟨"Book"⟩ ⟨"Shelf"⟩ none]).length = 1 ∧
      Drafted Library.registry Library.author { dialect := .sqlite }
        [.join .left ⟨"Author"⟩ ⟨"Book"⟩ none, .join .inner ⟨"Book"⟩ ⟨"Shelf"⟩ none]
        (Library.session.run [.join .left ⟨"Author"⟩ ⟨"Book"⟩ none, .join .inner ⟨"Book"⟩ ⟨"Shelf"⟩ none]) :=
  ⟨rfl, drafted_run Library.start_registry _⟩

end SqlDraft
