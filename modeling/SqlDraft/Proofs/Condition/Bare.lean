/-
  SqlDraft.Proofs.Condition.Bare — what qualifying does to a condition. It puts a table before
  each column and does nothing else: but for the tables (`bare`) a condition is resolved to
  the same fragment in either form (`bare_resolve`). So it can be resolved in both or in
  none, and then for the same reason (`map_resolve`).
-/

import SqlDraft.Resolution

namespace SqlDraft

/-! ## Without tables -/

def ColumnName.bare (c : ColumnName) : ColumnName := { c with table := none }

def Term.bare : Term → Term
  | .column c => .column c.bare
  | t => t

namespace Fragment

mutual

/-- No column with its table. -/
def bare : Fragment → Fragment
  | .nullTest c isNull => .nullTest c.bare isNull
  | .compare left op right => .compare left.bare op right.bare
  | .compound op fs => .compound op (bareAll fs)
  | .not f => .not f.bare
  | .raw sql => .raw sql

def bareAll : List Fragment → List Fragment
  | [] => []
  | f :: fs => f.bare :: bareAll fs

end

end Fragment

/-! ## Resolving -/

variable {r : Registry} {scope : Scope} (qualified : Bool)

theorem ColumnRef.bare_resolve (c : ColumnRef) :
    (c.resolve r scope qualified).map ColumnName.bare = c.resolve r scope false := by
  unfold ColumnRef.resolve
  split
  · split
    · rfl
    · split <;> rfl
  · rfl

theorem bare_resolveRight (field : String) (left : ColumnName) (op : ComparisonOp) (right : Operand) :
    (Condition.resolveRight r scope qualified field left op right).map Fragment.bare =
      Condition.resolveRight r scope false field left.bare op right := by
  cases right with
  | null => cases op <;> rfl
  | list values =>
    simp only [Condition.resolveRight]
    split
    · split <;> rfl
    · rfl
  | column c =>
    simp only [Condition.resolveRight, ← ColumnRef.bare_resolve qualified c]
    split
    · rfl
    · cases c.resolve r scope qualified <;> rfl
  | value v =>
    simp only [Condition.resolveRight]
    split <;> rfl

namespace Condition

mutual

theorem bare_resolve : ∀ c : Condition, (c.resolve r scope qualified).map Fragment.bare = c.resolve r scope false
  | .compare left op right => by
    simp only [resolve, ← ColumnRef.bare_resolve qualified left]
    cases left.resolve r scope qualified with
    | error e => rfl
    | ok column => exact bare_resolveRight qualified left.field column op right
  | .compound op parts => by
    simp only [resolve, ← bare_resolveAll parts]
    cases resolveAll r scope qualified parts <;> rfl
  | .not inner => by
    simp only [resolve, ← bare_resolve inner]
    cases inner.resolve r scope qualified <;> rfl
  | .raw _ => rfl

theorem bare_resolveAll : ∀ cs : List Condition,
    (resolveAll r scope qualified cs).map Fragment.bareAll = resolveAll r scope false cs
  | [] => rfl
  | c :: cs => by
    simp only [resolveAll, ← bare_resolve c, ← bare_resolveAll cs]
    cases c.resolve r scope qualified with
    | error e => rfl
    | ok f => cases resolveAll r scope qualified cs <;> rfl

end

end Condition

theorem Predicate.bare_resolve (p : Predicate) : (p.resolve r qualified).map Fragment.bare = p.resolve r false := by
  unfold Predicate.resolve
  rw [← Condition.bare_resolve qualified p.condition]
  cases p.condition.resolve r p.scope qualified <;> rfl

/-- Whether a predicate can be resolved, and why not, does not depend on its form. -/
theorem Predicate.map_resolve {α : Type} (p : Predicate) (a : α) :
    (p.resolve r qualified).map (fun _ => a) = (p.resolve r false).map fun _ => a := by
  rw [← Predicate.bare_resolve qualified p]
  cases p.resolve r qualified <;> rfl

end SqlDraft
