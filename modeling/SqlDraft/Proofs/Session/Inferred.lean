/-
  SqlDraft.Proofs.Session.Inferred — joins without a condition. Such a join needs two registered
  models and a field of one that holds the key of the other, and nothing else: the parent has
  a key, for there is a field that holds it, and only one, for no registered model has two.
  So it is refused for lack of a model or of a relationship and for no other reason, and the
  condition it is made with equates the parent's key with a field of the child
  (`inferring_perform`).
-/

import SqlDraft.Proofs.Registry.Registration
import SqlDraft.Proofs.Relationship.Swapped
import SqlDraft.Proofs.Session.Atomic
import SqlDraft.Proofs.Session.Tables

namespace SqlDraft

variable {r : Registry} {a b m : Model} {key : Field} {l : Relationship} {source target : ModelType}
  {kind : JoinKind} {on : Option Condition} {e : QueryError}

/-- The key of a model that has not two. -/
theorem filter_isPrimaryKey (hkey : m.primaryKey? = some key) (hcount : m.keyCount ≤ 1) :
    m.fields.filter (·.isPrimaryKey) = [key] := by
  rw [Model.primaryKey?, ← List.head?_filter] at hkey
  rw [Model.keyCount, List.countP_eq_length_filter] at hcount
  cases hkeys : m.fields.filter (·.isPrimaryKey) with
  | nil => simp [hkeys] at hkey
  | cons f fs =>
    rw [hkeys] at hkey hcount
    have hf : f = key := Option.some.inj hkey
    have hfs : fs = [] := List.length_eq_zero_iff.mp (by simpa using hcount)
    rw [hf, hfs]

/-! ## The condition -/

/-- Nothing can go wrong with a relationship that was found. -/
theorem JoinCondition.make_of_infer (h : Relationship.infer a b = .ok l) :
    ∃ key, l.parent.primaryKey? = some key ∧ JoinCondition.make r a b none =
      .ok (.keys ⟨l.parent.columnName true key, l.child.columnName true l.link⟩) := by
  obtain ⟨key, hkey, hlink⟩ := Relationship.keyLink_infer h
  refine ⟨key, hkey, Except.bind_eq_ok.mpr ⟨l, h, ?_⟩⟩
  exact Except.bind_eq_ok.mpr ⟨_, hlink, rfl⟩

theorem JoinCondition.make_of_refused (h : Relationship.infer a b = .error e) :
    JoinCondition.make r a b none = .error e := by
  rw [JoinCondition.make, h]
  rfl

theorem Joined.make_of_models (ha : r.model? source = some a) (hb : r.model? target = some b) :
    Joined.make r kind source target on = (JoinCondition.make r a b on).map fun c => ⟨a, b, kind, b.name, c⟩ := by
  rw [Joined.make, Registry.require_eq_ok.mpr ha, Registry.require_eq_ok.mpr hb]
  simp only [bind, Except.bind]
  cases JoinCondition.make r a b on <;> rfl

namespace Session

variable {s : Session}

/-! ## The answer -/

theorem result_join (s : Session) (kind : JoinKind) (source target : ModelType) (on : Option Condition) :
    (s.perform (.join kind source target on)).result =
      (Joined.make s.registry kind source target on).map fun _ => .done :=
  result_perform s rfl

theorem result_of_no_source (h : s.registry.model? source = none) :
    (s.perform (.join kind source target on)).result = .error (.notRegistered source) := by
  rw [result_join, Joined.make, Registry.require, h]
  rfl

theorem result_of_no_target (ha : s.registry.model? source = some a) (h : s.registry.model? target = none) :
    (s.perform (.join kind source target on)).result = .error (.notRegistered target) := by
  rw [result_join, Joined.make, Registry.require_eq_ok.mpr ha, Registry.require, h]
  rfl

theorem result_of_models (ha : s.registry.model? source = some a) (hb : s.registry.model? target = some b) :
    (s.perform (.join kind source target none)).result = (Relationship.infer a b).map fun _ => .done := by
  rw [result_join, Joined.make_of_models ha hb]
  cases h : Relationship.infer a b with
  | error e =>
    rw [JoinCondition.make_of_refused h]
    rfl
  | ok l =>
    obtain ⟨key, -, hmake⟩ := JoinCondition.make_of_infer h
    rw [hmake]
    rfl

/-- Two registered models are refused for lack of a relationship. -/
theorem result_eq_error (ha : s.registry.model? source = some a) (hb : s.registry.model? target = some b) :
    (s.perform (.join kind source target none)).result = .error e ↔
      foreignKey? a b = none ∧ foreignKey? b a = none ∧ e = .noRelationship a.name b.name := by
  rw [result_of_models ha hb, ← Relationship.infer_eq_error]
  cases Relationship.infer a b <;> simp [Except.map]

/-! ## The clause -/

/-- A join is written at the end of FROM. -/
theorem fromText_join {condition : JoinCondition} (ha : s.registry.model? source = some a)
    (hb : s.registry.model? target = some b) (h : JoinCondition.make s.registry a b on = .ok condition) :
    (s.perform (.join kind source target on)).session.fromText =
      s.fromText ++ (JoinClause.mk kind b.name condition).render s.dialect := by
  rw [perform, join_eq, Joined.make_of_models ha hb, h]
  simp [Except.map, change, fromText, fromText_append]

/-- A clause with the key of `parent` and the field of `child` that holds it. -/
theorem render_keys (d : Dialect) (target : String) (parent child : Model) (key link : Field) :
    (JoinClause.mk kind target (.keys ⟨parent.columnName true key, child.columnName true link⟩)).render d =
      " " ++ kind.keywords ++ " " ++ d.quote target ++ "  ON \n(" ++ d.quote parent.name ++ "." ++
        d.quote key.column ++ " = " ++ d.quote child.name ++ "." ++ d.quote link.column ++ ")" := by
  have hline (t : String) : "  ON " ++ ("\n(" ++ t) = "  ON \n(" ++ t := (String.append_assoc ..).symm
  simp only [JoinClause.render, JoinCondition.render, KeyLink.render, ColumnName.render, Model.columnName,
    Dialect.qualifier, if_true, String.append_assoc, hline]

theorem fromText_of_infer (hr : s.registry.Reachable) (kind : JoinKind) (ha : s.registry.model? source = some a)
    (hb : s.registry.model? target = some b) (h : Relationship.infer a b = .ok l) :
    ∃ key, l.parent.fields.filter (·.isPrimaryKey) = [key] ∧
      (s.perform (.join kind source target none)).session.fromText =
        s.fromText ++ (" " ++ kind.keywords ++ " " ++ s.dialect.quote b.name ++ "  ON \n(" ++
          s.dialect.quote l.parent.name ++ "." ++ s.dialect.quote key.column ++ " = " ++
          s.dialect.quote l.child.name ++ "." ++ s.dialect.quote l.link.column ++ ")") := by
  obtain ⟨key, hkey, hmake⟩ := JoinCondition.make_of_infer h
  -- Whichever of the two is the parent, it is registered, and then it has no second key.
  have hparent : l.parent ∈ s.registry.models := (Relationship.ends_mem_models ha hb h).1
  refine ⟨key, filter_isPrimaryKey hkey (hr.keyCount_le_one _ hparent), ?_⟩
  rw [fromText_join ha hb hmake, render_keys]

/-! ## Every pair of models -/

/-- What a join of two types without a condition is answered, and what it leaves. -/
structure Inferring (s : Session) (kind : JoinKind) (source target : ModelType) : Prop where
  notRegistered_iff : ∀ type, (s.perform (.join kind source target none)).result = .error (.notRegistered type) ↔
    s.registry.model? source = none ∧ type = source ∨
      (s.registry.model? source).isSome ∧ s.registry.model? target = none ∧ type = target
  noRelationship_iff : ∀ a b, s.registry.model? source = some a → s.registry.model? target = some b →
    ((s.perform (.join kind source target none)).result = .error (.noRelationship a.name b.name) ↔
      foreignKey? a b = none ∧ foreignKey? b a = none)
  ne_schema : ∀ fault, (s.perform (.join kind source target none)).result ≠ .error (.schema fault)
  made : ∀ a b, s.registry.model? source = some a → s.registry.model? target = some b →
    (foreignKey? a b).isSome ∨ (foreignKey? b a).isSome →
    (s.perform (.join kind source target none)).result = .ok .done ∧
      ∃ parent child key link, (parent = a ∧ child = b ∨ parent = b ∧ child = a) ∧
        parent.fields.filter (·.isPrimaryKey) = [key] ∧ link ∈ child.fields ∧ foreignKey? parent child = some link ∧
        (s.perform (.join kind source target none)).session.fromText =
          s.fromText ++ (" " ++ kind.keywords ++ " " ++ s.dialect.quote b.name ++ "  ON \n(" ++
            s.dialect.quote parent.name ++ "." ++ s.dialect.quote key.column ++ " = " ++
            s.dialect.quote child.name ++ "." ++ s.dialect.quote link.column ++ ")")

/-- A join without a condition fails only for lack of a model or of a relationship. -/
theorem inferring_perform (hr : s.registry.Reachable) (kind : JoinKind) (source target : ModelType) :
    Inferring s kind source target := by
  constructor
  case notRegistered_iff =>
    intro type
    cases ha : s.registry.model? source with
    | none => simp [result_of_no_source ha, eq_comm]
    | some a =>
      cases hb : s.registry.model? target with
      | none => simp [result_of_no_target ha hb, eq_comm]
      | some b => simp [result_eq_error ha hb]
  case noRelationship_iff =>
    intro a b ha hb
    simp [result_eq_error ha hb]
  case ne_schema =>
    intro fault
    cases ha : s.registry.model? source with
    | none => simp [result_of_no_source ha]
    | some a =>
      cases hb : s.registry.model? target with
      | none => simp [result_of_no_target ha hb]
      | some b => simp [result_eq_error ha hb]
  case made =>
    intro a b ha hb hkeys
    obtain ⟨l, hl⟩ := Relationship.exists_infer_iff.mpr hkeys
    obtain ⟨hends, hlink⟩ := Relationship.ends_of_infer hl
    obtain ⟨key, hkey, htext⟩ := fromText_of_infer hr kind ha hb hl
    refine ⟨?_, l.parent, l.child, key, l.link, hends, hkey, hlink, Relationship.foreignKey?_of_infer hl, htext⟩
    rw [result_of_models ha hb, hl]
    rfl

end Session

/-- Books are joined to their authors, authors have nothing to do with authors, and there are
    no shelves. -/
theorem inferring_perform_library :
    (Library.session.perform (.join .left ⟨"Author"⟩ ⟨"Book"⟩ none)).session.fromText =
        "FROM \"author\" LEFT JOIN \"book\"  ON \n(\"author\".\"id\" = \"book\".\"authorId\")" ∧
      (Library.session.perform (.join .left ⟨"Author"⟩ ⟨"Author"⟩ none)).result =
        .error (.noRelationship "author" "author") ∧
      (Library.session.perform (.join .left ⟨"Author"⟩ ⟨"Shelf"⟩ none)).result =
        .error (.notRegistered ⟨"Shelf"⟩) := by
  have hauthor : Registry.Reachable ⟨[Library.author]⟩ := .register (m := Library.author) .empty rfl
  have hr : Library.session.registry.Reachable := .register (m := Library.book) hauthor rfl
  have h := Session.inferring_perform hr .left ⟨"Author"⟩
  refine ⟨?_, ((h ⟨"Author"⟩).noRelationship_iff _ _ rfl rfl).mpr ⟨rfl, rfl⟩,
    ((h ⟨"Shelf"⟩).notRegistered_iff _).mpr (.inr ⟨rfl, rfl, rfl⟩)⟩
  obtain ⟨-, parent, child, key, link, hends, hkey, -, hlink, htext⟩ := (h ⟨"Book"⟩).made _ _ rfl rfl (.inl rfl)
  rcases hends with ⟨rfl, rfl⟩ | ⟨rfl, rfl⟩
  · cases hkey
    cases hlink
    exact htext
  · cases hlink

end SqlDraft
