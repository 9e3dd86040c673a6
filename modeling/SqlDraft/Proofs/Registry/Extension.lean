/-
  SqlDraft.Proofs.Registry.Extension — what has been found stays found. A registration adds a
  model at the end of the list or nothing at all, so a registry extends every one it has grown
  from (`extends_registerAll`), and whatever could be resolved in the smaller one is resolved
  to the same in the larger (`Extends.resolve`). What could not be resolved there may well be
  here.
-/

import SqlDraft.Proofs.Condition.Resolved
import SqlDraft.Proofs.Registry.Registration

namespace SqlDraft.Registry

/-- Every model that `r` finds is found in `r'`, and is the same there. -/
structure Extends (r r' : Registry) : Prop where
  model? : ∀ {type m}, r.model? type = some m → r'.model? type = some m
  named? : ∀ {name m}, r.named? name = some m → r'.named? name = some m

variable {r r' : Registry} {scope : Scope} {qualified : Bool}

theorem extends_registerAll (r : Registry) (qs : List Registration) : r.Extends (r.registerAll qs) where
  model? h := by
    rw [Registry.model?] at h ⊢
    rw [models_registerAll, List.find?_append, h, Option.some_or]
  named? h := by
    rw [Registry.named?] at h ⊢
    rw [models_registerAll, List.find?_append, h, Option.some_or]

theorem Extends.require (h : r.Extends r') {type : ModelType} {m : Model} (hm : r.require type = .ok m) :
    r'.require type = .ok m :=
  require_eq_ok.mpr (h.model? (require_eq_ok.mp hm))

theorem Extends.column (h : r.Extends r') {c : ColumnRef} {name : ColumnName}
    (hc : c.resolve r scope qualified = .ok name) : c.resolve r' scope qualified = .ok name := by
  unfold ColumnRef.resolve at hc ⊢
  split at hc
  · rename_i hs
    rw [if_pos hs]
    split at hc
    · cases hc
    · rename_i m hm
      rw [h.model? hm]
      exact hc
  · cases hc

/-- Only a column on the right side is looked up. -/
theorem Extends.resolveRight (h : r.Extends r') {field : String} {left : ColumnName} {op : ComparisonOp}
    {right : Operand} {f : Fragment} (hf : Condition.resolveRight r scope qualified field left op right = .ok f) :
    Condition.resolveRight r' scope qualified field left op right = .ok f := by
  cases right with
  | column c =>
    simp only [Condition.resolveRight] at hf ⊢
    split at hf
    · cases hf
    · rename_i hop
      obtain ⟨name, hc, rfl⟩ := Except.map_eq_ok.mp hf
      rw [if_neg hop, h.column hc]
      rfl
  | _ => exact hf

theorem Extends.respects (h : r.Extends r') :
    Respects r scope qualified (fun c f => c.resolve r' scope qualified = .ok f)
      (fun cs fs => Condition.resolveAll r' scope qualified cs = .ok fs) where
  comparison left op right f hf := by
    rw [Condition.resolve] at hf ⊢
    obtain ⟨column, hc, hf⟩ := Except.bind_eq_ok.mp hf
    exact Except.bind_eq_ok.mpr ⟨column, h.column hc, h.resolveRight hf⟩
  compound op cs fs hfs := by
    rw [Condition.resolve, hfs]
    rfl
  not c f hf := by
    rw [Condition.resolve, hf]
    rfl
  raw sql := rfl
  nil := rfl
  cons c cs f fs hf hfs := by
    rw [Condition.resolveAll, hf, hfs]
    rfl

theorem Extends.resolve (h : r.Extends r') {p : Predicate} {f : Fragment} (hf : p.resolve r qualified = .ok f) :
    p.resolve r' qualified = .ok f := by
  unfold Predicate.resolve
  rw [h.respects.resolve p.condition (Predicate.resolve_eq_ok hf)]
  rfl

theorem Extends.toSql (h : r.Extends r') {d : Dialect} {p : Predicate} {text : String}
    (ht : p.toSql r d qualified = .ok text) : p.toSql r' d qualified = .ok text := by
  obtain ⟨f, hf, rfl⟩ := Except.map_eq_ok.mp ht
  exact Except.map_eq_ok.mpr ⟨f, h.resolve hf, rfl⟩

end SqlDraft.Registry
