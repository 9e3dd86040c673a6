/-
  SqlDraft.Proofs.Session.Atomic — a join or a filter is made whole or not at all. The condition
  comes first and everything else after it, so one that is refused leaves the session it found
  and tells nothing (`refused_perform`); one that is made adds its clause, and a join its
  tables, and lets the rest be, the SELECT list of an earlier projection among it.

  The condition is made from the registry alone but for the tables before a filter's columns,
  which are in the text and no reason to refuse it. So the answer is the same in every state
  that a session can come to, and what is refused once is refused for good (`atomic_run`).
-/

import SqlDraft.Proofs.Session.Answer

namespace SqlDraft

namespace Session

variable {s : Session}

/-! ## A refusal -/

theorem refused_join {kind : JoinKind} {source target : ModelType} {on : Option Condition} {e : QueryError}
    (h : (s.perform (.join kind source target on)).result = .error e) :
    (s.perform (.join kind source target on)).session = s ∧ (s.perform (.join kind source target on)).log = [] := by
  simp only [perform] at h ⊢
  cases hj : s.join kind source target on with
  | error e => exact ⟨rfl, rfl⟩
  | ok joined =>
    rw [hj] at h
    cases h

theorem refused_filter {op : LogicalOp} {p : Predicate} {e : QueryError}
    (h : (s.perform (.filter op p)).result = .error e) :
    (s.perform (.filter op p)).session = s ∧ (s.perform (.filter op p)).log = [] := by
  simp only [perform] at h ⊢
  cases hf : s.filter op p with
  | error e => exact ⟨rfl, rfl⟩
  | ok filtered =>
    rw [hf] at h
    cases h

theorem refused_perform {c : Call} (hc : c.part? = some .joins ∨ c.part? = some .filters) {e : QueryError}
    (h : (s.perform c).result = .error e) : (s.perform c).session = s ∧ (s.perform c).log = [] := by
  cases c with
  | join => exact refused_join h
  | filter => exact refused_filter h
  | _ => simp [Call.part?] at hc

/-! ## What is added -/

/-- A join adds its clause and its two tables, and from then on columns are qualified. -/
theorem joined_perform {c : Call} (hc : c.part? = some .joins) {reply : Reply} (h : (s.perform c).result = .ok reply) :
    ∃ j, c.joined? s.registry = some j ∧ (s.perform c).session =
      { s with qualified := true, tables := j.extend s.tablesWithBase, joins := s.joins ++ [j.clause] } := by
  cases c with
  | join kind source target on =>
    simp only [perform, join_eq, Call.joined?] at h ⊢
    cases hj : Joined.make s.registry kind source target on with
    | error e =>
      rw [hj] at h
      cases h
    | ok j => exact ⟨j, rfl, rfl⟩
  | _ => cases hc

/-- A filter adds its fragment, in the form of the moment. -/
theorem filtered_perform {c : Call} (hc : c.part? = some .filters) {reply : Reply}
    (h : (s.perform c).result = .ok reply) :
    ∃ f, c.filter? s.registry s.qualified = some f ∧
      (s.perform c).session = { s with filters := s.filters ++ [f] } := by
  cases c with
  | filter op p =>
    simp only [perform, Session.filter, Call.filter?] at h ⊢
    cases hf : p.resolve s.registry s.qualified with
    | error e =>
      rw [hf] at h
      cases h
    | ok fragment => exact ⟨⟨op, fragment⟩, rfl, rfl⟩
  | _ => cases hc

/-! ## Every state of a session -/

/-- What a join or a filter is answered after the calls `past`, and what it leaves. -/
structure Atomic (s : Session) (past : List Call) (c : Call) : Prop where
  refused : ∀ e, ((s.run past).perform c).result = .error e →
    ((s.run past).perform c).session = s.run past ∧ ((s.run past).perform c).log = []
  /-- FROM, the tables and the flag change, and nothing else. -/
  joined : c.part? = some .joins → ∀ reply, ((s.run past).perform c).result = .ok reply →
    ∃ j, c.joined? s.registry = some j ∧ ((s.run past).perform c).session =
      { s.run past with
        qualified := true
        tables := j.extend (s.run past).tablesWithBase
        joins := (s.run past).joins ++ [j.clause] }
  /-- WHERE changes, and nothing else. -/
  filtered : c.part? = some .filters → ∀ reply, ((s.run past).perform c).result = .ok reply →
    ∃ f, c.filter? s.registry (s.run past).qualified = some f ∧
      ((s.run past).perform c).session = { s.run past with filters := (s.run past).filters ++ [f] }
  /-- The same success or the same error as in every other state. -/
  result_eq : ∀ calls, ((s.run calls).perform c).result = ((s.run past).perform c).result
  lasting : ∀ e, ((s.run past).perform c).result = .error e → ∀ more,
    ((s.run (past ++ c :: more)).perform c).result = .error e

theorem atomic_run (s : Session) {c : Call} (hc : c.part? = some .joins ∨ c.part? = some .filters)
    (past : List Call) : Atomic s past c := by
  have hpart : c.part?.isSome := by rcases hc with hc | hc <;> rw [hc] <;> rfl
  have hregistry : (s.run past).registry = s.registry := (run_frame s past).1
  have hresult (calls : List Call) : ((s.run calls).perform c).result = c.answer s.registry := by
    rw [result_perform _ hpart, (run_frame s calls).1]
  constructor
  case refused => exact fun e => refused_perform hc
  case joined =>
    intro hjoin reply hok
    rw [← hregistry]
    exact joined_perform hjoin hok
  case filtered =>
    intro hfilter reply hok
    rw [← hregistry]
    exact filtered_perform hfilter hok
  case result_eq =>
    intro calls
    rw [hresult, hresult]
  case lasting =>
    intro e he more
    rw [hresult, ← hresult past, he]

end Session

/-- Authors do not refer to authors: not before the first join, and not after it. -/
theorem atomic_run_library :
    let c : Call := .join .inner ⟨"Author"⟩ ⟨"Author"⟩ none
    (Library.session.perform c).result = .error (.noRelationship "author" "author") ∧
      ((Library.session.run [c, .join .left ⟨"Author"⟩ ⟨"Book"⟩ none, .selectInto ⟨"Book"⟩]).perform c).result =
        .error (.noRelationship "author" "author") := by
  intro c
  have hresult : (Library.session.perform c).result = .error (.noRelationship "author" "author") := rfl
  exact ⟨hresult, (Session.atomic_run Library.session (.inl rfl) []).lasting _ hresult
    [.join .left ⟨"Author"⟩ ⟨"Book"⟩ none, .selectInto ⟨"Book"⟩]⟩

end SqlDraft
