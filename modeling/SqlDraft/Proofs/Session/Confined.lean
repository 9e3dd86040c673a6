/-
  SqlDraft.Proofs.Session.Confined — what a projection touches. It commits the tables, the
  SELECT list and the kept lists first and assembles the statement after that
  (`session_selectInto_eq`). So what it leaves does not depend on whether an ordering term
  is at fault: it is the same under every ordering (`selectInto_ordered`), and without one
  the statement does not fail. All other parts of the session stay as they were, and a
  projection onto the base without qualified columns, or onto an unregistered shape, leaves
  the whole of it (`confined_selectInto`).
-/

import SqlDraft.Proofs.Session.Control

namespace SqlDraft

namespace Session

/-- The session with another ordering. -/
def ordered (s : Session) (terms : List OrderTerm) : Session := { s with ordering := terms }

/-- The session with other tables, another SELECT list and other kept lists. -/
def committing (s : Session) (tables : List Model) (projection : Option (List SelectItem))
    (cache : List CachedProjection) : Session := { s with tables, projection, cache }

/-- The session with the list of `shape`, whatever comes of the statement. -/
def committed (s : Session) (shape : Model) : Session :=
  s.committing s.tablesWithBase (some (s.projected shape)) (s.keeping shape)

variable {s : Session} {type : ModelType} {shape : Model}

/-! ## The shape that is projected onto -/

theorem shape?_of_base (htype : type = s.base.type) (hq : s.qualified = false) :
    (Call.selectInto type).shape? s.registry s.base s.qualified = none := if_pos ⟨htype, hq⟩

theorem shape?_of_unregistered (hm : s.registry.model? type = none) :
    (Call.selectInto type).shape? s.registry s.base s.qualified = none := by
  rw [Call.shape?, hm, ite_self]

theorem shape?_of_registered (hm : s.registry.model? type = some shape)
    (hbase : type = s.base.type → s.qualified = true) :
    (Call.selectInto type).shape? s.registry s.base s.qualified = some shape := by
  rw [← hm]
  refine if_neg fun ⟨htype, hq⟩ => ?_
  rw [hbase htype] at hq
  cases hq

/-! ## What is left -/

theorem session_selectInto_eq (s : Session) (type : ModelType) : (s.perform (.selectInto type)).session =
    ((Call.selectInto type).shape? s.registry s.base s.qualified).elim s s.committed := by
  rw [session_selectInto]
  unfold after
  cases hshape : (Call.selectInto type).shape? s.registry s.base s.qualified with
  | none => simp [Call.joined?, Call.filter?, Call.orderTerm?, Call.limit?, Call.offset?]
  | some shape =>
    simp [Call.joined?, Call.filter?, Call.orderTerm?, Call.limit?, Call.offset?, committed, committing]

/-- A projection commutes with a change of the ordering, but for what it answers. -/
theorem selectInto_ordered (s : Session) (type : ModelType) (terms : List OrderTerm) :
    ((s.ordered terms).perform (.selectInto type)).session = (s.perform (.selectInto type)).session.ordered terms ∧
      ((s.ordered terms).perform (.selectInto type)).log = (s.perform (.selectInto type)).log := by
  have hsame : (Call.selectInto type).shape? (s.ordered terms).registry (s.ordered terms).base
      (s.ordered terms).qualified = (Call.selectInto type).shape? s.registry s.base s.qualified := rfl
  rw [session_selectInto_eq, session_selectInto_eq, log_selectInto, log_selectInto, hsame]
  cases (Call.selectInto type).shape? s.registry s.base s.qualified <;> exact ⟨rfl, rfl⟩

theorem tables_committed (s : Session) (shape : Model) :
    (s.committed shape).tables = s.tables ∨ s.tables = [] ∧ (s.committed shape).tables = [s.base] := by
  have htables : (s.committed shape).tables = if s.tables.isEmpty then [s.base] else s.tables := rfl
  rw [htables]
  cases hempty : s.tables.isEmpty with
  | true => exact .inr ⟨List.isEmpty_iff.mp hempty, rfl⟩
  | false => exact .inl rfl

/-- Without an ordering there is nothing to be at fault. -/
theorem exists_statement_of_unordered (hs : s.ordering = []) : ∃ text, s.statement = .ok text := by
  unfold statement draft
  rw [hs]
  exact ⟨_, rfl⟩

theorem result_selectInto_unordered (hm : (s.registry.model? type).isSome) :
    ∃ text, ((s.ordered []).perform (.selectInto type)).result = .ok (.statement text) := by
  have hunordered : ((s.ordered []).after (.selectInto type)).ordering = [] := rfl
  obtain ⟨text, htext⟩ := exists_statement_of_unordered hunordered
  refine ⟨text, ?_⟩
  rw [result_selectInto, if_pos (.inr hm), htext]
  rfl

/-! ## Every state -/

/-- What a projection of `s` onto the model of a type leaves and logs, whatever it answers. -/
structure Confined (s : Session) (type : ModelType) : Prop where
  /-- FROM, WHERE, the flag, the ordering, the limit and the offset stay. -/
  frame : ∃ tables projection cache, (s.perform (.selectInto type)).session = s.committing tables projection cache
  tables : (s.perform (.selectInto type)).session.tables = s.tables ∨
    s.tables = [] ∧ (s.perform (.selectInto type)).session.tables = [s.base]
  onto_base : type = s.base.type → s.qualified = false →
    (s.perform (.selectInto type)).session = s ∧ (s.perform (.selectInto type)).log = []
  unregistered : s.registry.model? type = none →
    (s.perform (.selectInto type)).session = s ∧ (s.perform (.selectInto type)).log = []
  registered : (type = s.base.type → s.qualified = true) → ∀ shape, s.registry.model? type = some shape →
    (s.perform (.selectInto type)).session = s.committed shape ∧ (s.perform (.selectInto type)).log = s.told shape
  /-- Under any other ordering, at fault or not, the same is left and logged. -/
  alike : ∀ terms,
    ((s.ordered terms).perform (.selectInto type)).session = (s.perform (.selectInto type)).session.ordered terms ∧
      ((s.ordered terms).perform (.selectInto type)).log = (s.perform (.selectInto type)).log
  /-- Without an ordering the statement does not fail. -/
  unordered : (s.registry.model? type).isSome →
    ∃ text, ((s.ordered []).perform (.selectInto type)).result = .ok (.statement text)

/-- A projection commits the tables, the list and the kept lists or nothing at all, and a fault
    in the ordering takes nothing of it back. -/
theorem confined_selectInto (s : Session) (type : ModelType) : Confined s type := by
  constructor
  case frame =>
    rw [session_selectInto_eq]
    cases (Call.selectInto type).shape? s.registry s.base s.qualified with
    | none => exact ⟨s.tables, s.projection, s.cache, rfl⟩
    | some shape => exact ⟨_, _, _, rfl⟩
  case tables =>
    rw [session_selectInto_eq]
    cases (Call.selectInto type).shape? s.registry s.base s.qualified with
    | none => exact .inl rfl
    | some shape => exact tables_committed s shape
  case onto_base =>
    intro htype hq
    rw [session_selectInto_eq, log_selectInto, shape?_of_base htype hq]
    exact ⟨rfl, rfl⟩
  case unregistered =>
    intro hm
    rw [session_selectInto_eq, log_selectInto, shape?_of_unregistered hm]
    exact ⟨rfl, rfl⟩
  case registered =>
    intro hbase shape hm
    rw [session_selectInto_eq, log_selectInto, shape?_of_registered hm hbase]
    exact ⟨rfl, rfl⟩
  case alike => exact selectInto_ordered s type
  case unordered => exact result_selectInto_unordered

end Session

/-- Authors have no `born`, so the statement fails, and the list of the book is set all the same. -/
example :
    let o := (Library.session.ordered [⟨⟨⟨"Author"⟩, "born"⟩, .asc⟩]).perform (.selectInto ⟨"Book"⟩)
    o.result = .error (.predicate (.unknownField "author" "born")) ∧
      o.session.selectText = "SELECT \"author\".\"id\", \"author\".\"title\", \"author\".\"authorId\"" :=
  ⟨rfl, rfl⟩

end SqlDraft
