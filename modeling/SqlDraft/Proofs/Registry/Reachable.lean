/-
  SqlDraft.Proofs.Registry.Reachable — the registries that registrations lead to. A type and a
  name are each taken once, so a registered model is known by either.
-/

import Mathlib.Data.List.Nodup
import SqlDraft.Registry

namespace SqlDraft.Registry

/-- A refused registration leaves the registry as it was. -/
inductive Reachable : Registry → Prop
  | empty : Reachable empty
  | register {r r' : Registry} {m : Model} : Reachable r → r.register m = .ok r' → Reachable r'
  | registerShape {r r' : Registry} {m : Model} : Reachable r → r.registerShape m = .ok r' → Reachable r'

variable {r r' : Registry} {m n : Model}

theorem insert_eq_ok (h : r.insert m = .ok r') :
    r.model? m.type = none ∧ r.named? m.name = none ∧ firstRepeated? [] (m.fields.map (·.name)) = none ∧
      r' = ⟨r.models ++ [m]⟩ := by
  unfold insert at h
  split at h
  · cases h
  · rename_i htype
    split at h
    · cases h
    · rename_i hname
      split at h
      · cases h
      · rename_i hfields
        cases h
        exact ⟨by simpa using htype, by simpa using hname, hfields, rfl⟩

theorem insert_of_register (h : r.register m = .ok r') : r.insert m = .ok r' := by
  unfold register at h
  split at h
  · cases h
  · exact h

theorem insert_of_registerShape (h : r.registerShape m = .ok r') : r.insert m = .ok r' := by
  unfold registerShape at h
  split at h
  · cases h
  · exact h

/-- Where no model has what `m` has of `f`, adding `m` keeps them apart by `f`. -/
theorem nodup_map_concat {α : Type} (f : Model → α) (hr : (r.models.map f).Nodup) (hfree : ∀ n ∈ r.models, f n ≠ f m) :
    ((r.models ++ [m]).map f).Nodup := by
  rw [List.map_append, List.nodup_append]
  refine ⟨hr, List.nodup_singleton _, ?_⟩
  intro x hx y hy
  rw [List.map_singleton, List.mem_singleton] at hy
  obtain ⟨n, hn, rfl⟩ := List.mem_map.mp hx
  rw [hy]
  exact hfree n hn

theorem nodup_names_insert (hr : (r.models.map (·.name)).Nodup) (h : r.insert m = .ok r') :
    (r'.models.map (·.name)).Nodup := by
  obtain ⟨-, hname, -, rfl⟩ := insert_eq_ok h
  exact nodup_map_concat (·.name) hr fun n hn => by simpa using List.find?_eq_none.mp hname n hn

theorem nodup_types_insert (hr : (r.models.map (·.type)).Nodup) (h : r.insert m = .ok r') :
    (r'.models.map (·.type)).Nodup := by
  obtain ⟨htype, -, -, rfl⟩ := insert_eq_ok h
  exact nodup_map_concat (·.type) hr fun n hn => by simpa using List.find?_eq_none.mp htype n hn

theorem Reachable.nodup_names (h : Reachable r) : (r.models.map (·.name)).Nodup := by
  induction h with
  | empty => exact List.nodup_nil
  | register _ hm ih => exact nodup_names_insert ih (insert_of_register hm)
  | registerShape _ hm ih => exact nodup_names_insert ih (insert_of_registerShape hm)

theorem Reachable.nodup_types (h : Reachable r) : (r.models.map (·.type)).Nodup := by
  induction h with
  | empty => exact List.nodup_nil
  | register _ hm ih => exact nodup_types_insert ih (insert_of_register hm)
  | registerShape _ hm ih => exact nodup_types_insert ih (insert_of_registerShape hm)

theorem mem_of_model? {type : ModelType} (h : r.model? type = some m) : m ∈ r.models := List.mem_of_find?_eq_some h

/-- A type stands for one registered model. -/
theorem eq_of_model? {type type' : ModelType} (hm : r.model? type = some m) (hn : r.model? type' = some n)
    (h : m.type = n.type) : m = n := by
  rw [← type_of_model? hm] at hm
  rw [← type_of_model? hn, ← h, hm] at hn
  exact Option.some.inj hn

theorem require_eq_ok {type : ModelType} : r.require type = .ok m ↔ r.model? type = some m := by
  unfold require
  cases r.model? type <;> simp

/-- Registered models of one name are the same model. -/
theorem Reachable.eq_of_name_eq (h : Reachable r) (hm : m ∈ r.models) (hn : n ∈ r.models) (he : m.name = n.name) :
    m = n :=
  List.inj_on_of_nodup_map h.nodup_names hm hn he

end SqlDraft.Registry
