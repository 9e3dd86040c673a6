/-
  SqlDraft.Error — why a request is refused, cause by cause, and the one wording of each
  (`QueryError.message`).
-/

import SqlDraft.Condition
import SqlDraft.Text.Shown

namespace SqlDraft

/-- What is wrong with a condition. -/
inductive PredicateFault where
  /-- The predicate does not range over the column's model. -/
  | outOfScope (column : ColumnRef)
  | unknownModel (type : ModelType)
  | unknownField (model field : String)
  /-- Only `=` and `<>` compare with NULL. -/
  | nullComparison (field : String) (op : ComparisonOp)
  | emptyList (op : ComparisonOp) (field : String)
  /-- A list without an operator for lists, or such an operator without a list. -/
  | listMismatch (op : ComparisonOp) (field : String)
  deriving DecidableEq, Repr

def PredicateFault.message : PredicateFault → String
  | .outOfScope column => column.model.name ++ "." ++ column.field ++ " is not a parameter of this predicate"
  | .unknownModel type => type.name ++ " is not registered"
  | .unknownField model field => model ++ " has no field " ++ field
  | .nullComparison field op => "cannot compare " ++ field ++ " with NULL using " ++ op.symbol
  | .emptyList op field => "empty " ++ op.symbol ++ " list for " ++ field
  | .listMismatch op field => op.symbol ++ " on " ++ field ++ " requires a value list"

/-- What is wrong with a model, by itself or beside those already registered. -/
inductive SchemaFault where
  | keyCount (model : String) (found : Nat)
  | shapeKeys (shape : String)
  | typeTaken (type : ModelType)
  | nameTaken (name : String)
  | repeatedField (model field : String)
  | noPrimaryKey (model : String)
  deriving DecidableEq, Repr

def SchemaFault.message : SchemaFault → String
  | .keyCount model found =>
    "Model " ++ model ++ " must declare exactly one primary key, found " ++ toString found
  | .shapeKeys shape => "Shape " ++ shape ++ " declares more than one primary key"
  | .typeTaken type => "Model " ++ type.name ++ " already registered"
  | .nameTaken name => "Model name " ++ name ++ " already in use"
  | .repeatedField model field => "Model " ++ model ++ " declares field " ++ field ++ " twice"
  | .noPrimaryKey model => model ++ " has no primary key"

inductive QueryError where
  | noRelationship (source target : String)
  | predicate (fault : PredicateFault)
  | notRegistered (type : ModelType)
  /-- An ordering column belongs to a model that is not registered. -/
  | orderNotRegistered (type : ModelType)
  | schema (fault : SchemaFault)
  /-- The separator of a configuration is empty or not blank. -/
  | separator (text : String)
  /-- The text of a configuration is not one. -/
  | malformedConfig
  deriving DecidableEq, Repr

/-- The wording of each cause. Two are worded otherwise than a user sees them. The model of an
    ordering column is looked up by its type's identifier, and the message shows the debugging
    form of that identifier: the type's name stands for it here. And what is wrong with the
    text of a configuration is told in the words of the JSON reader: one wording stands for
    all of these. -/
def QueryError.message : QueryError → String
  | .noRelationship source target => "Could not infer relationship between " ++ source ++ " and " ++ target
  | .predicate fault => "Translation error: " ++ fault.message
  | .notRegistered type => "Model not registered: " ++ type.name
  | .orderNotRegistered type => "Model not registered: " ++ type.name
  | .schema fault => "Schema error: " ++ fault.message
  | .separator text => "Config error: separator must be whitespace, got " ++ Text.shown text
  | .malformedConfig => "JSON error: not a configuration"

end SqlDraft
