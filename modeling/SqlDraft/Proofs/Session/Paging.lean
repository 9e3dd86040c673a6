/-
  SqlDraft.Proofs.Session.Paging — limits and offsets after a run of calls. What pages a statement
  is told from its text (`samePage_of_paging_eq`). In SQL Server the statement of every session
  without raw text is legal: it has an OFFSET clause and a FETCH clause just if what they need was
  set, and an ordering in front of them whether or not one was asked for (`paged_run`).

  A session is free of raw text if its joins and filters are, which is so after calls that bring
  none in (`isRawFree_run`).
-/

import SqlDraft.Proofs.Lexical.Paging
import SqlDraft.Proofs.Session.Injection

namespace SqlDraft

/-! ## What was set -/

namespace Calls

variable {calls : List Call}

/-- Calls that contribute are those of the one kind that does. -/
theorem filterMap_ne_nil_iff {α : Type} {part? : Call → Option α} {call : α → Call}
    (h : ∀ c a, part? c = some a ↔ c = call a) : calls.filterMap part? ≠ [] ↔ ∃ a, call a ∈ calls := by
  rw [ne_eq, List.eq_nil_iff_forall_not_mem, not_forall_not]
  simp only [List.mem_filterMap, h]
  constructor
  · rintro ⟨a, c, hc, rfl⟩
    exact ⟨a, hc⟩
  · rintro ⟨a, ha⟩
    exact ⟨a, _, ha, rfl⟩

theorem ordering_ne_nil_iff : ordering calls ≠ [] ↔ ∃ column direction, .orderBy column direction ∈ calls := by
  have hterm (c : Call) (o : OrderTerm) : c.orderTerm? = some o ↔ c = .orderBy o.column o.direction := by
    obtain ⟨column, direction⟩ := o
    cases c <;> simp [Call.orderTerm?]
  rw [ordering, filterMap_ne_nil_iff hterm]
  constructor
  · rintro ⟨o, ho⟩
    exact ⟨o.column, o.direction, ho⟩
  · rintro ⟨column, direction, h⟩
    exact ⟨⟨column, direction⟩, h⟩

theorem limit_ne_none_iff : limit calls ≠ none ↔ ∃ rows, .limit rows ∈ calls := by
  have hlimit (c : Call) (rows : Nat) : c.limit? = some rows ↔ c = .limit rows := by cases c <;> simp [Call.limit?]
  rw [limit, ne_eq, List.getLast?_eq_none_iff, ← ne_eq, filterMap_ne_nil_iff hlimit]

theorem offset_ne_none_iff : offset calls ≠ none ↔ ∃ rows, .offset rows ∈ calls := by
  have hoffset (c : Call) (rows : Nat) : c.offset? = some rows ↔ c = .offset rows := by cases c <;> simp [Call.offset?]
  rw [offset, ne_eq, List.getLast?_eq_none_iff, ← ne_eq, filterMap_ne_nil_iff hoffset]

end Calls

/-! ## Sessions without raw text -/

namespace Session

/-- No condition in the session has raw text. -/
def IsRawFree (s : Session) : Prop :=
  (∀ j ∈ s.joins, j.condition.isRawFree = true) ∧ ∀ f ∈ s.filters, f.fragment.isRawFree = true

variable {r : Registry} {type : ModelType} {c : Config} {s : Session} {calls : List Call}

theorem isRawFree_run (h : Session.start r type c = .ok s) (hraw : ∀ call ∈ calls, call.isRawFree = true) :
    (s.run calls).IsRawFree := by
  have hrun := account_run h calls
  rw [IsRawFree, hrun.joins_eq, hrun.filters_eq]
  exact isRawFree_parts hraw

/-- A statement has the parts of its session, and keys to order by if the session has terms for them. -/
theorem parts_of_draft {q : Statement} (h : s.draft = .ok q) :
    q.joins = s.joins ∧ q.filters = s.filters ∧ (q.ordering = [] ↔ s.ordering = []) ∧ q.limit = s.limit ∧
      q.offset = s.offset := by
  obtain ⟨keys, hkeys, hq⟩ := Except.bind_eq_ok.mp h
  cases hq
  have hlength : s.ordering.length = keys.length := (Except.mapM_eq_ok.mp hkeys).length_eq
  have hordering : keys = [] ↔ s.ordering = [] := by
    rw [← List.length_eq_zero_iff, ← hlength, List.length_eq_zero_iff]
  exact ⟨rfl, rfl, hordering, rfl, rfl⟩

theorem paged_statement {sql : String} (hd : s.dialect = .sqlserver) (hsep : Config.isSeparator s.separator = true)
    (hraw : s.IsRawFree) (h : s.statement = .ok sql) :
    ∃ ts, Sql.lex ⟨'[', ']'⟩ sql = some ts ∧ Paged (s.ordering ≠ []) (s.limit ≠ none) (s.offset ≠ none) ts := by
  obtain ⟨q, hq, rfl⟩ := Except.map_eq_ok.mp h
  obtain ⟨hjoins, hfilters, hordering, hlimit, hoffset⟩ := parts_of_draft hq
  have hqraw : q.IsRawFree := by
    rw [Statement.IsRawFree, hjoins, hfilters]
    exact hraw
  rw [hd, ne_eq, ← hordering, ← hlimit, ← hoffset]
  exact ⟨_, spells_statement rfl hsep hqraw, paged_tokens q⟩

/-! ## Every run -/

/-- The text that pages a statement tells its limit and its offset. In SQL Server the statement of a
    run pages and orders as its calls asked for, and never pages without an ordering. -/
theorem paged_run :
    (∀ (d : Dialect) (ordered : Bool) (limit offset limit' offset' : Option Nat),
      d.paging limit offset ordered = d.paging limit' offset' ordered ↔ d.SamePage limit offset limit' offset') ∧
    ∀ {r : Registry} {type : ModelType} {c : Config} {s : Session} {calls : List Call} {sql : String},
      Session.start r type c = .ok s → c.dialect = .sqlserver → (s.run calls).IsRawFree →
      (s.run calls).statement = .ok sql →
        ∃ ts, Sql.lex ⟨'[', ']'⟩ sql = some ts ∧
          Paged (∃ column direction, .orderBy column direction ∈ calls) (∃ rows, .limit rows ∈ calls)
            (∃ rows, .offset rows ∈ calls) ts := by
  refine ⟨fun d ordered _ _ _ _ => ⟨samePage_of_paging_eq, paging_eq_of_samePage ordered⟩, ?_⟩
  intro r type c s calls sql h hdialect hraw hsql
  have hrun := account_run h calls
  obtain ⟨-, hd, hsep, -⟩ := run_frame s calls
  obtain ⟨hvalid, m, -, hs⟩ := start_eq_ok.mp h
  have hd : (s.run calls).dialect = .sqlserver := by rw [hd, hs, hdialect]
  have hsep : Config.isSeparator (s.run calls).separator = true := by rwa [hsep, hs]
  rw [← Calls.ordering_ne_nil_iff, ← Calls.limit_ne_none_iff, ← Calls.offset_ne_none_iff, ← hrun.ordering_eq,
    ← hrun.limit_eq, ← hrun.offset_eq]
  exact paged_statement hd hsep hraw hsql

end Session

namespace Library

/-- Its names are keywords, one of them with a bracket in it. -/
def orders : Model := { type := ⟨"Order"⟩, name := "ORDER BY", fields := [{ name := "OFFSET]", isPrimaryKey := true }] }

def orderSession : Session :=
  { registry := ⟨[orders]⟩, dialect := .sqlserver, separator := " \n", base := orders, qualified := false }

/-- The value to compare with looks like the end of a statement. -/
def firstOrders : List Call :=
  [.filter .and (.single ⟨"Order"⟩ (.eq ⟨⟨"Order"⟩, "OFFSET]"⟩ (.value (.text "' ORDER BY 1 OFFSET 0 ROWS")))),
    .limit 5]

end Library

/-- A limit brings an offset and an ordering with it. -/
theorem paged_run_library :
    ∃ ts, Sql.lex ⟨'[', ']'⟩
        ("SELECT [OFFSET]]] \nFROM [ORDER BY] \nWHERE ([OFFSET]]] = ''' ORDER BY 1 OFFSET 0 ROWS')" ++
          " ORDER BY (SELECT NULL) OFFSET 0 ROWS FETCH NEXT 5 ROWS ONLY") = some ts ∧
      Paged (∃ column direction, .orderBy column direction ∈ Library.firstOrders)
        (∃ rows, .limit rows ∈ Library.firstOrders) (∃ rows, .offset rows ∈ Library.firstOrders) ts := by
  have hstart : Session.start ⟨[Library.orders]⟩ ⟨"Order"⟩ { dialect := .sqlserver } = .ok Library.orderSession := rfl
  have hraw : (Library.orderSession.run Library.firstOrders).IsRawFree := Session.isRawFree_run hstart (by decide)
  exact Session.paged_run.2 hstart rfl hraw rfl

end SqlDraft
