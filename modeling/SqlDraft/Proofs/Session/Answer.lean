/-
  SqlDraft.Proofs.Session.Answer — the answers of a run. Every call but a projection or a
  request for the statement adds to one part of the statement, and what it is answered is
  between the call and the registry (`result_perform`): a session has no part in it, whatever
  was called before. So the joins that were made in a run (`madeJoins`) are those of its calls
  that the registry admits (`madeJoins_eq`).
-/

import Mathlib.Data.List.Basic
import SqlDraft.Proofs.Condition.Bare
import SqlDraft.Proofs.Session.Account

namespace SqlDraft

/-- The parts of a statement that calls add to, one by one. -/
inductive Part where
  | joins | filters | ordering | limit | offset
  deriving DecidableEq, Repr

namespace Call

def part? : Call → Option Part
  | .join .. => some .joins
  | .filter .. => some .filters
  | .orderBy .. => some .ordering
  | .limit _ => some .limit
  | .offset _ => some .offset
  | .selectInto _ | .statement => none

/-- What a call that adds to a part is answered. -/
def answer (r : Registry) : Call → Except QueryError Reply
  | .join kind source target on => (Joined.make r kind source target on).map fun _ => .done
  | .filter _ p => (p.resolve r false).map fun _ => .done
  | _ => .ok .done

end Call

variable {r : Registry} {base : Model} {calls : List Call}

theorem result_perform (s : Session) {c : Call} (hc : c.part?.isSome) : (s.perform c).result = c.answer s.registry := by
  cases c with
  | join kind source target on =>
    simp only [Session.perform, Session.join_eq, Call.answer]
    cases Joined.make s.registry kind source target on <;> rfl
  | filter op p =>
    simp only [Session.perform, Session.filter, Call.answer, ← Predicate.map_resolve s.qualified p]
    cases p.resolve s.registry s.qualified <;> rfl
  | selectInto => cases hc
  | statement => cases hc
  | _ => rfl

/-! ## Calls with their past -/

/-- What does not look at the past. -/
theorem filterMap_withPast {β : Type} (f : Call → Option β) (past : List Call) :
    (withPast past calls).filterMap (fun (_, c) => f c) = calls.filterMap f := by
  induction calls generalizing past with
  | nil => rfl
  | cons c calls ih => rw [withPast, List.filterMap_cons, List.filterMap_cons, ih]

namespace Session

/-- The joins of a run that were answered, each by the types of its two models. -/
def madeJoins (s : Session) (calls : List Call) : List (ModelType × ModelType) :=
  (withPast [] calls).filterMap fun (past, c) =>
    match c with
    | .join _ source target _ => if ((s.run past).perform c).result.isOk then some (source, target) else none
    | _ => none

theorem isOk_join (s : Session) (kind : JoinKind) (source target : ModelType) (on : Option Condition) :
    (s.perform (.join kind source target on)).result.isOk =
      ((Call.join kind source target on).joined? s.registry).isSome := by
  rw [result_perform s rfl]
  simp only [Call.answer, Call.joined?]
  cases Joined.make s.registry kind source target on <;> rfl

theorem types_joined? {kind : JoinKind} {source target : ModelType} {on : Option Condition} {j : Joined}
    (h : (Call.join kind source target on).joined? r = some j) : j.source.type = source ∧ j.target.type = target := by
  obtain ⟨_, _, _, _, _, hcall, hs, ht, -⟩ := joined?_eq_some h
  cases hcall
  exact ⟨Registry.type_of_model? hs, Registry.type_of_model? ht⟩

theorem madeJoins_eq (s : Session) (calls : List Call) :
    s.madeJoins calls = (Calls.joined s.registry calls).map fun j => (j.source.type, j.target.type) := by
  rw [Calls.joined, List.map_filterMap, ← filterMap_withPast _ [], madeJoins]
  refine List.filterMap_congr fun p _ => ?_
  obtain ⟨past, c⟩ := p
  cases c with
  | join kind source target on =>
    simp only [isOk_join, (run_frame s past).1]
    cases hj : (Call.join kind source target on).joined? s.registry with
    | none => rfl
    | some j =>
      obtain ⟨hs, ht⟩ := types_joined? hj
      simp [hs, ht]
  | _ => rfl

end Session

end SqlDraft
