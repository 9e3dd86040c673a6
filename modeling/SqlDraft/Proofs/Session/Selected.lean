/-
  SqlDraft.Proofs.Session.Selected — the SELECT list that a projection sets. It is the list
  of the shape over the tables of the moment, whichever lists were kept or set before: one
  entry for each field, read from the first table that declares it (`selected_run`).

  The base has been the first of the tables from the start, and no registered model declares
  a name twice. So every field of the base is found in the base itself, whatever has been
  joined to it, and once columns are qualified the projection onto the base is the list
  that a session shows without any projection (`select_base_run`).
-/

import SqlDraft.Proofs.Projection.Entry
import SqlDraft.Proofs.Registry.Registration
import SqlDraft.Proofs.Session.Confined
import SqlDraft.Proofs.Session.Projected
import SqlDraft.Proofs.Session.Qualified

namespace SqlDraft

variable {r : Registry} {base shape : Model} {type : ModelType} {c : Config} {s : Session} {calls : List Call}

theorem head?_tables : (Calls.tables r base calls).head? = some base := by
  obtain ⟨rest, hrest⟩ : [base] <+: Calls.tables r base calls := tables_prefix (List.nil_prefix (l := calls))
  rw [← hrest]
  rfl

/-- A projection that does something leaves the list of its shape over the tables of the moment,
    and these tables. -/
theorem projected_selectInto (h : Session.start r type c = .ok s) {shapeType : ModelType}
    (hm : r.model? shapeType = some shape) (hbase : shapeType = s.base.type → (s.run calls).qualified = true) :
    ((s.run calls).perform (.selectInto shapeType)).session.items =
        projectionItems s.base (Calls.tables r s.base calls) shape ∧
      ((s.run calls).perform (.selectInto shapeType)).session.tables = Calls.tables r s.base calls := by
  have hrun := account_run h calls
  rw [← hrun.registry_eq] at hm
  rw [← hrun.base_eq] at hbase
  have hshape := Session.shape?_of_registered hm hbase
  rw [Session.session_selectInto_eq, hshape]
  exact ⟨hrun.projected_eq hshape, hrun.tables_eq⟩

/-! ## Every shape -/

/-- The SELECT list of the session `t` is that of the shape: an entry for each field, in
    declared order, and each names a table that takes part. -/
structure Selected (r : Registry) (d : Dialect) (base : Model) (calls : List Call) (shape : Model) (t : Session) :
    Prop where
  /-- The base, and after it the models of the joins as they were made. -/
  tables_eq : t.tables = Calls.tables r base calls
  head_eq : t.tables.head? = some base
  select_eq : t.selectText = "SELECT " ++ ", ".intercalate (t.items.map (·.render d))
  entries : List.Forall₂ (Entry d base t.tables) shape.fields (t.items.map (·.render d))
  named : ∀ item ∈ t.items, ∃ table ∈ t.tables, item.source.table = some table.name

/-- After any run a projection onto a registered shape, unless it is the base and columns are
    not qualified, sets the SELECT list to that of the shape. -/
theorem selected_run (h : Session.start r type c = .ok s) {shapeType : ModelType}
    (hm : r.model? shapeType = some shape) (hbase : shapeType = s.base.type → (s.run calls).qualified = true) :
    Selected r c.dialect s.base calls shape ((s.run calls).perform (.selectInto shapeType)).session := by
  obtain ⟨hitems, htables⟩ := projected_selectInto h hm hbase
  constructor
  case tables_eq => exact htables
  case head_eq => rw [htables, head?_tables]
  case select_eq =>
    rw [← Session.run_concat, items_eq (account_run h _)]
    exact (drafted_run h _).select_eq
  case entries =>
    rw [hitems, htables]
    exact entries_projectionItems c.dialect s.base _ shape
  case named =>
    rw [hitems, htables]
    exact table_projectionItems base_mem_tables

/-- The index card of a book, with a field that no table declares. -/
def Library.card : Model :=
  { type := ⟨"Card"⟩
    name := "card"
    fields := [{ name := "title" }, { name := "id" }, { name := "edition", column := "rev", isRowVersion := true }] }

def Library.carded : Session := { Library.session with registry := ⟨[author, book, card]⟩, dialect := .postgres }

/-- Both tables declare `id`, and the author is the first of them. -/
theorem selected_run_library :
    let t := ((Library.carded.run [.join .left ⟨"Author"⟩ ⟨"Book"⟩ none]).perform (.selectInto ⟨"Card"⟩)).session
    Selected Library.carded.registry .postgres Library.author [.join .left ⟨"Author"⟩ ⟨"Book"⟩ none] Library.card t ∧
      t.selectText = "SELECT \"book\".\"title\", \"author\".\"id\", \"author\".xmin as \"rev\"" := by
  have hstart : Session.start Library.carded.registry ⟨"Author"⟩ { dialect := .postgres } = .ok Library.carded := rfl
  exact ⟨selected_run hstart rfl nofun, rfl⟩

/-! ## The base -/

theorem items_selectInto_base (hr : r.Reachable) (h : Session.start r type c = .ok s)
    (hq : (s.run calls).qualified = true) :
    ((s.run calls).perform (.selectInto type)).session.items = s.base.fields.map (s.base.selectItem true) := by
  have hm := Session.model?_of_start h
  obtain ⟨rest, hrest⟩ := List.head?_eq_some_iff.mp (head?_tables : (Calls.tables r s.base calls).head? = _)
  rw [(projected_selectInto h hm fun _ => hq).1, hrest]
  exact projectionItems_base (hr.nodup_fields s.base (Registry.mem_of_model? hm)) rest

/-- Without a projection all fields of the base are shown. -/
theorem items_of_unprojected (h : Session.start r type c = .ok s)
    (hunprojected : ∀ call ∈ calls, call.isProjection = false) :
    (s.run calls).items = s.base.fields.map (s.base.selectItem (s.run calls).qualified) := by
  have hrun := account_run h calls
  have hsame : Calls.unprojected calls = calls := by
    refine List.filter_eq_self.mpr fun call hcall => ?_
    rw [hunprojected call hcall]
    rfl
  rw [items_eq hrun, hrun.qualified_eq, ← Calls.items_unprojected, hsame]

/-- Once columns are qualified, the projection onto the base is the list that a session over the
    same base shows without a projection, whatever either of them has joined. -/
theorem select_base_run (hr : r.Reachable) (h : Session.start r type c = .ok s) (hq : (s.run calls).qualified = true)
    {c' : Config} {s' : Session} {calls' : List Call} (h' : Session.start r type c' = .ok s')
    (hdialect : c'.dialect = c.dialect) (hq' : (s'.run calls').qualified = true)
    (hunprojected : ∀ call ∈ calls', call.isProjection = false) :
    ((s.run calls).perform (.selectInto type)).session.items = (s'.run calls').items ∧
      ((s.run calls).perform (.selectInto type)).session.selectText = (s'.run calls').selectText := by
  have hbase : s'.base = s.base :=
    Option.some.inj ((Session.model?_of_start h').symm.trans (Session.model?_of_start h))
  have hitems : ((s.run calls).perform (.selectInto type)).session.items = (s'.run calls').items := by
    rw [items_selectInto_base hr h hq, items_of_unprojected h' hunprojected, hq', hbase]
  refine ⟨hitems, ?_⟩
  rw [← Session.run_concat] at hitems ⊢
  rw [(drafted_run h _).select_eq, (drafted_run h' _).select_eq, ← items_eq (account_run h _),
    ← items_eq (account_run h' _), hitems, hdialect]

/-- A join that shares `id` with the base, and the list of another shape before. -/
theorem select_base_run_library :
    ((Library.session.run [.join .left ⟨"Author"⟩ ⟨"Book"⟩ none, .selectInto ⟨"Book"⟩]).perform
        (.selectInto ⟨"Author"⟩)).session.selectText = "SELECT \"author\".\"id\", \"author\".\"name\"" := by
  have hauthor : Registry.Reachable ⟨[Library.author]⟩ := .register (m := Library.author) .empty rfl
  have hr : Library.registry.Reachable := .register (m := Library.book) hauthor rfl
  have hqualified : Session.start Library.registry ⟨"Author"⟩ { dialect := .sqlite, qualified := true } =
    .ok { Library.session with qualified := true } := rfl
  have hdefault : (({ Library.session with qualified := true } : Session).run []).qualified = true := rfl
  exact (select_base_run hr Library.start_registry rfl hqualified rfl hdefault nofun).2.trans rfl

end SqlDraft
