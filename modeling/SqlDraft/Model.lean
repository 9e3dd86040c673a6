/-
  SqlDraft.Model — models: what a type's table is called and which fields it has. A model
  without a key serves as a shape that statements are projected onto.

  Which field of a child links it to a parent is decided in three searches
  (`foreignKey?`): a declared link that also bears the parent's name, any declared link,
  a field that only bears the name.
-/

namespace SqlDraft

/-- The type a model describes, known by its full name. -/
structure ModelType where
  name : String
  deriving DecidableEq, Repr

structure Field where
  name : String
  column : String := name
  isPrimaryKey : Bool := false
  /-- The column tells versions of a row apart, and a dialect may read it in its own way. -/
  isRowVersion : Bool := false
  /-- The model whose key this field holds. -/
  references : Option ModelType := none
  deriving DecidableEq, Repr

structure Model where
  type : ModelType
  /-- The name of the table. -/
  name : String
  fields : List Field
  deriving DecidableEq, Repr

namespace Model

def primaryKey? (m : Model) : Option Field := m.fields.find? (·.isPrimaryKey)

def field? (m : Model) (name : String) : Option Field := m.fields.find? (·.name = name)

theorem field?_eq_none_iff {m : Model} {name : String} : m.field? name = none ↔ ∀ f ∈ m.fields, f.name ≠ name := by
  simp [field?]

/-- The first of that name. -/
theorem field?_eq_some_iff {m : Model} {name : String} {f : Field} :
    m.field? name = some f ↔ f.name = name ∧ ∃ before after, m.fields = before ++ f :: after ∧
      ∀ g ∈ before, g.name ≠ name := by
  simp [field?, List.find?_eq_some_iff_append]

/-- How many fields are declared as the key. -/
def keyCount (m : Model) : Nat := m.fields.countP (·.isPrimaryKey)

/-- The name by which a field refers to `m` without a declared link. -/
def linkName (m : Model) : String := m.name ++ "Id"

end Model

def Field.linksTo (parent : Model) (f : Field) : Bool := f.references = some parent.type

def Field.isNamedFor (parent : Model) (f : Field) : Bool := f.name = parent.linkName

/-- The field of `child` that holds the key of `parent`. A parent without a key has none. -/
def foreignKey? (parent child : Model) : Option Field :=
  if parent.primaryKey?.isNone then none
  else
    ((child.fields.find? fun f => f.linksTo parent && f.isNamedFor parent).or
      (child.fields.find? (·.linksTo parent))).or
      (child.fields.find? (·.isNamedFor parent))

theorem mem_fields_of_foreignKey? {parent child : Model} {f : Field}
    (h : foreignKey? parent child = some f) : f ∈ child.fields := by
  unfold foreignKey? at h
  split at h
  · cases h
  · simp only [Option.or_eq_some_iff] at h
    rcases h with (h | ⟨-, h⟩) | ⟨-, h⟩ <;> exact List.mem_of_find?_eq_some h

end SqlDraft
