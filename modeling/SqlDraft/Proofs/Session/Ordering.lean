/-
  SqlDraft.Proofs.Session.Ordering — when a statement cannot be assembled, and for how long.
  An ordering term is taken as it is given and looked up when the statement is asked for. It
  is at fault if its model is not registered or does not declare its field (`OrderTerm.Fault`),
  and nothing that a session does has a say in that.

  The first fault of the ordering is why there is no statement (`failure?_statement`). Terms
  are only added, at the end, so it remains the first in every state from there on
  (`statement_after_of_error`), and the statements that projections answer fail with it. Joins
  and filters do not look at the ordering (`perform_ordered`).
-/

import SqlDraft.Proofs.Session.Confined

namespace SqlDraft

/-! ## A term -/

namespace OrderTerm

variable {r : Registry} {o : OrderTerm} {e : QueryError}

/-- The term names a field that its model, a registered one, declares. -/
def Sound (r : Registry) (o : OrderTerm) : Prop :=
  ∃ m, r.model? o.column.model = some m ∧ ∃ f ∈ m.fields, f.name = o.column.field

/-- What is wrong with a term. -/
inductive Fault (r : Registry) (o : OrderTerm) : QueryError → Prop
  | unknownModel : r.model? o.column.model = none → Fault r o (.orderNotRegistered o.column.model)
  | unknownField {m : Model} : r.model? o.column.model = some m → (∀ f ∈ m.fields, f.name ≠ o.column.field) →
      Fault r o (.predicate (.unknownField m.name o.column.field))

def fault? (r : Registry) (o : OrderTerm) : Option QueryError := (o.resolve r false).failure?

/-- Whether columns are qualified is no reason to fail. -/
theorem failure?_resolve (qualified : Bool) (o : OrderTerm) : (o.resolve r qualified).failure? = o.fault? r := by
  unfold fault? resolve
  cases r.model? o.column.model with
  | none => rfl
  | some m =>
    dsimp only
    cases m.field? o.column.field <;> rfl

theorem fault?_of_fault (h : o.Fault r e) : o.fault? r = some e := by
  unfold fault? resolve
  cases h with
  | unknownModel hm =>
    rw [hm]
    rfl
  | unknownField hm hf =>
    rw [hm]
    dsimp only
    rw [Model.field?_eq_none_iff.mpr hf]
    rfl

theorem fault?_of_sound (h : o.Sound r) : o.fault? r = none := by
  obtain ⟨m, hm, f, hf, hname⟩ := h
  unfold fault? resolve
  rw [hm]
  dsimp only
  cases hfield : m.field? o.column.field with
  | none => exact absurd hname (Model.field?_eq_none_iff.mp hfield f hf)
  | some g => rfl

theorem sound_or_fault (r : Registry) (o : OrderTerm) : o.Sound r ∨ ∃ e, o.Fault r e := by
  cases hm : r.model? o.column.model with
  | none => exact .inr ⟨_, .unknownModel hm⟩
  | some m =>
    by_cases hf : ∃ f ∈ m.fields, f.name = o.column.field
    · exact .inl ⟨m, hm, hf⟩
    · exact .inr ⟨_, .unknownField hm fun f hmem hname => hf ⟨f, hmem, hname⟩⟩

theorem fault?_eq_none_iff : o.fault? r = none ↔ o.Sound r := by
  refine ⟨fun h => ?_, fault?_of_sound⟩
  rcases sound_or_fault r o with hs | ⟨e, he⟩
  · exact hs
  · rw [fault?_of_fault he] at h
    cases h

theorem fault?_eq_some_iff : o.fault? r = some e ↔ o.Fault r e := by
  refine ⟨fun h => ?_, fault?_of_fault⟩
  rcases sound_or_fault r o with hs | ⟨e', he⟩
  · rw [fault?_of_sound hs] at h
    cases h
  · rw [fault?_of_fault he] at h
    exact Option.some.inj h ▸ he

end OrderTerm

/-- The first of the terms that is at fault, and what is wrong with it. -/
def FirstFault (r : Registry) (terms : List OrderTerm) (e : QueryError) : Prop :=
  ∃ before o after, terms = before ++ o :: after ∧ (∀ b ∈ before, b.Sound r) ∧ o.Fault r e

theorem findSome?_fault?_eq_some_iff {r : Registry} {terms : List OrderTerm} {e : QueryError} :
    terms.findSome? (·.fault? r) = some e ↔ FirstFault r terms e := by
  rw [List.findSome?_eq_some_iff]
  simp only [OrderTerm.fault?_eq_none_iff, OrderTerm.fault?_eq_some_iff]
  constructor
  · rintro ⟨before, o, after, hterms, ho, hbefore⟩
    exact ⟨before, o, after, hterms, hbefore, ho⟩
  · rintro ⟨before, o, after, hterms, hbefore, ho⟩
    exact ⟨before, o, after, hterms, ho, hbefore⟩

namespace Session

variable {s : Session} {e : QueryError}

/-! ## A state -/

theorem failure?_statement (s : Session) : s.statement.failure? = s.ordering.findSome? (·.fault? s.registry) := by
  have hdraft : s.draft.failure? = (s.ordering.mapM (OrderTerm.resolve s.registry s.qualified)).failure? := by
    unfold draft
    cases s.ordering.mapM (OrderTerm.resolve s.registry s.qualified) <;> rfl
  rw [statement, Except.failure?_map, hdraft, Except.failure?_mapM]
  simp only [OrderTerm.failure?_resolve]

/-- What is added behind a fault does not show. -/
theorem statement_after_of_error (h : s.statement = .error e) (c : Call) : (s.after c).statement = .error e := by
  rw [← Except.failure?_eq_some_iff, failure?_statement] at h ⊢
  have hordering : (s.after c).ordering = s.ordering ++ c.orderTerm?.toList := rfl
  have hregistry : (s.after c).registry = s.registry := rfl
  rw [hordering, hregistry, List.findSome?_append, h, Option.some_or]

theorem statement_run_of_error (h : s.statement = .error e) (calls : List Call) :
    (s.run calls).statement = .error e :=
  run_induction (motive := fun _ t => t.statement = .error e) h (fun _ _ c ht => statement_after_of_error ht c) calls

theorem result_selectInto_of_error (h : s.statement = .error e) {type : ModelType}
    (htype : type = s.base.type ∧ s.qualified = false ∨ (s.registry.model? type).isSome) :
    (s.perform (.selectInto type)).result = .error e := by
  rw [result_selectInto, if_pos htype, statement_after_of_error h]
  rfl

/-- Joins and filters do the same under every ordering. -/
theorem perform_ordered (s : Session) {c : Call} (hc : c.part? = some .joins ∨ c.part? = some .filters)
    (terms : List OrderTerm) :
    ((s.ordered terms).perform c).result = (s.perform c).result ∧
      ((s.ordered terms).perform c).session = (s.perform c).session.ordered terms ∧
      ((s.ordered terms).perform c).log = (s.perform c).log := by
  have hregistry : (s.ordered terms).registry = s.registry := rfl
  cases c with
  | join kind source target on =>
    simp only [perform, join_eq, hregistry]
    cases Joined.make s.registry kind source target on <;> exact ⟨rfl, rfl, rfl⟩
  | filter op p =>
    have hqualified : (s.ordered terms).qualified = s.qualified := rfl
    simp only [perform, Session.filter, hregistry, hqualified]
    cases p.resolve s.registry s.qualified <;> exact ⟨rfl, rfl, rfl⟩
  | _ => simp [Call.part?] at hc

/-! ## Every state -/

/-- Whatever steps lead to, calls in place lead to. -/
theorem exists_run_of_mem_performAll {start : Option Session} {steps : List Step} {o : StepOutcome}
    (h : o ∈ Step.performAll start steps) {t : Session} (ht : o.session = some t) :
    ∃ s calls, start = some s ∧ t = s.run calls := by
  have hstep (start : Option Session) (step : Step) {t : Session} (ht : (step.perform start).session = some t) :
      ∃ s, start = some s ∧ t = s.run [step.call] := by
    cases start with
    | none => cases ht
    | some s =>
      rw [step.session_some] at ht
      split at ht
      · cases ht
      · exact ⟨s, rfl, (Option.some.inj ht).symm⟩
  induction steps generalizing start with
  | nil => cases h
  | cons step steps ih =>
    rcases List.mem_cons.mp h with rfl | h
    · obtain ⟨s, hs, rfl⟩ := hstep start step ht
      exact ⟨s, [step.call], hs, rfl⟩
    · obtain ⟨mid, calls, hmid, rfl⟩ := ih h
      obtain ⟨s, hs, rfl⟩ := hstep start step hmid
      exact ⟨s, step.call :: calls, hs, rfl⟩

/-- What comes of assembling a statement after the calls, and of the calls that follow. -/
structure Assembling (s : Session) (calls : List Call) : Prop where
  error_iff : ∀ e, (s.run calls).statement = .error e ↔ FirstFault s.registry (Calls.ordering calls) e
  ok_iff : (∃ text, (s.run calls).statement = .ok text) ↔ ∀ o ∈ Calls.ordering calls, o.Sound s.registry
  /-- A failure is one in every later state, that of the statement and of what answers it. -/
  lasting : ∀ e, (s.run calls).statement = .error e → ∀ more,
    (s.run (calls ++ more)).statement = .error e ∧
      ∀ type, type = s.base.type ∨ (s.registry.model? type).isSome →
        ((s.run (calls ++ more)).perform (.selectInto type)).result = .error e
  /-- Also where a chained call that fails takes the session with it, as long as there is one. -/
  lasting_steps : ∀ e, (s.run calls).statement = .error e → ∀ steps,
    ∀ o ∈ Step.performAll (some (s.run calls)) steps, ∀ t, o.session = some t → t.statement = .error e
  /-- Joins and filters do under this ordering what they do under any other. -/
  unaffected : ∀ c, c.part? = some .joins ∨ c.part? = some .filters → ∀ terms,
    (((s.run calls).ordered terms).perform c).result = ((s.run calls).perform c).result ∧
      (((s.run calls).ordered terms).perform c).session = ((s.run calls).perform c).session.ordered terms ∧
      (((s.run calls).ordered terms).perform c).log = ((s.run calls).perform c).log

/-- A statement fails just for the first fault among the terms so far, and for good. -/
theorem assembling_run {r : Registry} {type : ModelType} {c : Config} (h : Session.start r type c = .ok s)
    (calls : List Call) : Assembling s calls := by
  have hrun := account_run h calls
  obtain ⟨-, m, hm, hs⟩ := start_eq_ok.mp h
  have hregistry : s.registry = r := by rw [hs]
  have hfailure : (s.run calls).statement.failure? = (Calls.ordering calls).findSome? (·.fault? r) := by
    rw [failure?_statement, hrun.ordering_eq, hrun.registry_eq]
  constructor
  case error_iff =>
    intro e
    rw [← Except.failure?_eq_some_iff, hfailure, findSome?_fault?_eq_some_iff, hregistry]
  case ok_iff =>
    rw [← Except.failure?_eq_none_iff, hfailure, List.findSome?_eq_none_iff, hregistry]
    simp only [OrderTerm.fault?_eq_none_iff]
  case lasting =>
    intro e he more
    have hmore : (s.run (calls ++ more)).statement = .error e := by
      have := statement_run_of_error he more
      rwa [run, run, ← List.foldl_append] at this
    refine ⟨hmore, fun type htype => result_selectInto_of_error hmore (.inr ?_)⟩
    rw [(run_frame s (calls ++ more)).1]
    rcases htype with rfl | hmodel
    · rw [hregistry, hs, Registry.type_of_model? hm, hm]
      rfl
    · exact hmodel
  case lasting_steps =>
    intro e he steps o ho t ht
    obtain ⟨u, more, hu, rfl⟩ := exists_run_of_mem_performAll ho ht
    cases hu
    exact statement_run_of_error he more
  case unaffected => exact fun c hc terms => perform_ordered _ hc terms

end Session

/-- The author's name is there; there is neither a date of birth nor a shelf. -/
def Library.misordered : List Call :=
  [.orderBy ⟨⟨"Author"⟩, "name"⟩ .asc, .orderBy ⟨⟨"Author"⟩, "born"⟩ .asc, .orderBy ⟨⟨"Shelf"⟩, "id"⟩ .desc]

/-- The date of birth is reported, also after a join and a projection, and to the next
    projection as well. -/
theorem assembling_run_library :
    let more : List Call := [.join .left ⟨"Author"⟩ ⟨"Book"⟩ none, .selectInto ⟨"Book"⟩]
    (Library.session.run Library.misordered).statement = .error (.predicate (.unknownField "author" "born")) ∧
      ((Library.session.run (Library.misordered ++ more)).perform (.selectInto ⟨"Author"⟩)).result =
        .error (.predicate (.unknownField "author" "born")) := by
  intro more
  have h := Session.assembling_run Library.start_registry Library.misordered
  have hname : OrderTerm.Sound Library.registry ⟨⟨⟨"Author"⟩, "name"⟩, .asc⟩ :=
    ⟨Library.author, rfl, { name := "name" }, by decide, rfl⟩
  have hborn : OrderTerm.Fault Library.registry ⟨⟨⟨"Author"⟩, "born"⟩, .asc⟩
      (.predicate (.unknownField "author" "born")) :=
    .unknownField (m := Library.author) rfl (by decide)
  have hstatement := (h.error_iff _).mpr
    ⟨[⟨⟨⟨"Author"⟩, "name"⟩, .asc⟩], _, _, rfl, List.forall_mem_singleton.mpr hname, hborn⟩
  exact ⟨hstatement, (h.lasting _ hstatement more).2 ⟨"Author"⟩ (.inl rfl)⟩

end SqlDraft
