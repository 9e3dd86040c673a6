/-
  SqlDraft.Proofs.Session.Control — how a session is spelled has no say in what it does. A
  session keeps its parts as data, and dialect and separator only make a text of them; the
  one text that is looked at again, that of WHERE, is empty in all dialects or in none
  (`whereText_eq_empty_iff`). So a step leads two sessions that are but spelled differently to
  two such sessions, with the same verdict and the same records (`perform_spelled`), and so
  do all steps of a run, chained or not (`control_run`).
-/

import SqlDraft.Proofs.Session.Answer

namespace SqlDraft

/-- The record but for the WHERE text that it may quote. -/
def LogRecord.outline : LogRecord → LogRecord
  | .filtered _ => .filtered ""
  | record => record

/-- Success, whatever the reply, or the error. -/
def verdict {ε α : Type} (result : Except ε α) : Except ε Unit := result.map fun _ => ()

theorem verdict_map {ε α β : Type} (x : Except ε α) (f : α → β) : verdict (x.map f) = verdict x := by
  cases x <;> rfl

theorem isOk_verdict {ε α : Type} (x : Except ε α) : (verdict x).isOk = x.isOk := by
  cases x <;> rfl

theorem verdict_mapError {ε ε' α : Type} (x : Except ε α) (f : ε → ε') :
    verdict (x.mapError f) = (verdict x).mapError f := by
  cases x <;> rfl

/-- Only raw text without a character leaves WHERE empty. -/
theorem whereText_eq_empty_iff (d : Dialect) (fs : List Filter) :
    whereText d fs = "" ↔ ∀ f ∈ fs, f.fragment = .raw "" := by
  induction fs with
  | nil => simp [whereText]
  | cons f fs ih =>
    by_cases hf : f.fragment = .raw ""
    · have htext : whereText d (f :: fs) = whereText d fs := by
        simp [whereText, tieFilter, render_eq_empty_iff.mpr hf]
      rw [htext, ih]
      simp [hf]
    · have hne : f.fragment.render d ≠ "" := mt render_eq_empty_iff.mp hf
      rw [whereText_eq]
      simp [hf, hne, String.append_eq_empty_iff]

namespace Session

variable (s : Session) (d : Dialect) (separator : String)

/-- The session as another dialect spells it, with another separator. -/
def spelled : Session := { s with dialect := d, separator }

@[simp] theorem registry_spelled : (s.spelled d separator).registry = s.registry := rfl
@[simp] theorem base_spelled : (s.spelled d separator).base = s.base := rfl
@[simp] theorem qualified_spelled : (s.spelled d separator).qualified = s.qualified := rfl
@[simp] theorem draft_spelled : (s.spelled d separator).draft = s.draft := rfl
@[simp] theorem after_spelled (c : Call) : (s.spelled d separator).after c = (s.after c).spelled d separator := rfl

/-! ## A call -/

theorem verdict_statement : verdict (s.spelled d separator).statement = verdict s.statement := by
  rw [statement, statement, verdict_map, verdict_map, draft_spelled]

theorem verdict_spelled (c : Call) :
    verdict ((s.spelled d separator).perform c).result = verdict (s.perform c).result := by
  cases c with
  | selectInto shape =>
    rw [result_selectInto, result_selectInto, after_spelled, registry_spelled, base_spelled, qualified_spelled]
    split
    · rw [verdict_map, verdict_map, verdict_statement]
    · rfl
  | statement =>
    simp only [perform]
    rw [verdict_map, verdict_map, verdict_statement]
  | _ => rw [result_perform _ rfl, result_perform _ rfl, registry_spelled]

/-- What the projection onto a shape tells. -/
def told (shape : Model) : List LogRecord :=
  match s.cached? shape.type s.tablesWithBase.length with
  | some _ => [.projectionReused shape.name]
  | none => projectionNotes s.base s.tablesWithBase shape ++ [.projected (s.projected shape).length shape.name]

theorem log_selectInto (shape : ModelType) : (s.perform (.selectInto shape)).log =
    ((Call.selectInto shape).shape? s.registry s.base s.qualified).elim [] s.told := by
  simp only [perform, selectInto, project_eq, Call.shape?]
  by_cases hbase : shape = s.base.type ∧ s.qualified = false
  · simp only [if_pos hbase]
    rfl
  · simp only [if_neg hbase, Registry.require]
    cases hm : s.registry.model? shape with
    | none => rfl
    | some model =>
      have ht : model.type = shape := Registry.type_of_model? hm
      rw [Option.elim_some, told, ht]
      cases s.cached? shape s.tablesWithBase.length <;> rfl

theorem log_spelled (c : Call) :
    ((s.spelled d separator).perform c).log.map LogRecord.outline = (s.perform c).log.map LogRecord.outline := by
  cases c with
  | join kind source target on =>
    simp only [perform, join_eq, registry_spelled]
    cases Joined.make s.registry kind source target on <;> rfl
  | filter op p =>
    simp only [perform, Session.filter, registry_spelled, qualified_spelled]
    cases p.resolve s.registry s.qualified with
    | error e => rfl
    | ok fragment => simp [change, bind, Except.bind, pure, Except.pure, LogRecord.outline]
  | selectInto shape =>
    rw [log_selectInto, log_selectInto]
    rfl
  | _ => rfl

/-- A call does the same to a session however it is spelled. -/
theorem perform_spelled (c : Call) :
    ((s.spelled d separator).perform c).session = (s.perform c).session.spelled d separator ∧
      verdict ((s.spelled d separator).perform c).result = verdict (s.perform c).result ∧
      ((s.spelled d separator).perform c).log.map LogRecord.outline = (s.perform c).log.map LogRecord.outline := by
  refine ⟨?_, verdict_spelled s d separator c, log_spelled s d separator c⟩
  rw [session_perform, session_perform, after_spelled]

/-! ## What two sessions show -/

/-- The sessions are at the same point, and where the dialect is the same so are the texts. -/
structure Alike (s t : Session) : Prop where
  tables_eq : t.tables = s.tables
  qualified_eq : t.qualified = s.qualified
  keys_eq : t.cache.map (fun e => (e.shape, e.tableCount)) = s.cache.map fun e => (e.shape, e.tableCount)
  limit_eq : t.limit = s.limit
  offset_eq : t.offset = s.offset
  ordering_eq : t.ordering = s.ordering
  where_empty_iff : t.whereText = "" ↔ s.whereText = ""
  texts_eq : t.dialect = s.dialect →
    t.fromText = s.fromText ∧ t.whereText = s.whereText ∧ t.selectText = s.selectText

theorem alike_spelled : Alike s (s.spelled d separator) where
  tables_eq := rfl
  qualified_eq := rfl
  keys_eq := rfl
  limit_eq := rfl
  offset_eq := rfl
  ordering_eq := rfl
  where_empty_iff := (whereText_eq_empty_iff d s.filters).trans (whereText_eq_empty_iff s.dialect s.filters).symm
  texts_eq := by
    intro h
    have hd : d = s.dialect := h
    subst hd
    exact ⟨rfl, rfl, rfl⟩

end Session

/-! ## Steps -/

/-- The same verdict, the same records but for the WHERE text, and sessions alike, if any. -/
structure StepOutcome.Alike (o p : StepOutcome) : Prop where
  verdict_eq : verdict p.result = verdict o.result
  log_eq : p.log.map LogRecord.outline = o.log.map LogRecord.outline
  sessions : Option.Rel Session.Alike o.session p.session

theorem rel_spelled (s : Option Session) (d : Dialect) (separator : String) :
    Option.Rel Session.Alike s (s.map (·.spelled d separator)) := by
  cases s with
  | none => exact .none
  | some s => exact .some (s.alike_spelled d separator)

namespace Step

theorem result_some (step : Step) (s : Session) :
    (step.perform (some s)).result = (s.perform step.call).result.mapError .error := by
  simp only [Step.perform]
  cases (s.perform step.call).result <;> rfl

theorem log_some (step : Step) (s : Session) : (step.perform (some s)).log = (s.perform step.call).log := by
  simp only [Step.perform]
  cases (s.perform step.call).result <;> rfl

/-- Only a chained call takes the session with it, and only if it fails. -/
theorem session_some (step : Step) (s : Session) : (step.perform (some s)).session =
    if step.chained && !(s.perform step.call).result.isOk then none else some (s.perform step.call).session := by
  simp only [Step.perform]
  cases (s.perform step.call).result <;> simp [Except.isOk, Except.toBool]

theorem session_spelled (step : Step) (s : Option Session) (d : Dialect) (separator : String) :
    (step.perform (s.map (·.spelled d separator))).session = (step.perform s).session.map (·.spelled d separator) := by
  cases s with
  | none => rfl
  | some s =>
    obtain ⟨hsession, hverdict, -⟩ := s.perform_spelled d separator step.call
    rw [Option.map_some, session_some, session_some, hsession, ← isOk_verdict, hverdict, isOk_verdict]
    split <;> rfl

theorem perform_spelled (step : Step) (s : Option Session) (d : Dialect) (separator : String) :
    (step.perform s).Alike (step.perform (s.map (·.spelled d separator))) := by
  have hsessions : Option.Rel Session.Alike (step.perform s).session
      (step.perform (s.map (·.spelled d separator))).session := by
    rw [session_spelled]
    exact rel_spelled _ d separator
  cases s with
  | none => exact ⟨rfl, rfl, hsessions⟩
  | some s =>
    obtain ⟨-, hverdict, hlog⟩ := s.perform_spelled d separator step.call
    refine ⟨?_, ?_, hsessions⟩
    · rw [Option.map_some, result_some, result_some, verdict_mapError, verdict_mapError, hverdict]
    · rw [Option.map_some, log_some, log_some, hlog]

end Step

theorem performAll_spelled (steps : List Step) (s : Option Session) (d : Dialect) (separator : String) :
    List.Forall₂ StepOutcome.Alike (Step.performAll s steps)
      (Step.performAll (s.map (·.spelled d separator)) steps) := by
  induction steps generalizing s with
  | nil => exact .nil
  | cons step steps ih =>
    refine .cons (step.perform_spelled s d separator) ?_
    rw [step.session_spelled]
    exact ih _

/-! ## Every run -/

/-- Two configurations that may differ in dialect and separator start sessions over the same
    base or fail alike, and step by step the sessions stay alike. -/
theorem control_run (r : Registry) (base : ModelType) (c c' : Config) (hc : Config.isSeparator c.separator = true)
    (hc' : Config.isSeparator c'.separator = true) (hqualified : c'.qualified = c.qualified) :
    (∃ e, Session.start r base c = .error e ∧ Session.start r base c' = .error e) ∨
      ∃ s t, Session.start r base c = .ok s ∧ Session.start r base c' = .ok t ∧ Session.Alike s t ∧
        ∀ steps, List.Forall₂ StepOutcome.Alike (Step.performAll (some s) steps) (Step.performAll (some t) steps) := by
  cases hm : r.model? base with
  | none =>
    left
    refine ⟨.notRegistered base, ?_, ?_⟩ <;>
      simp [Session.start, Config.check, Registry.require, hm, hc, hc', bind, Except.bind]
  | some m =>
    right
    have hs := Session.start_eq_ok.mpr ⟨hc, m, hm, rfl⟩
    have ht := Session.start_eq_ok.mpr ⟨hc', m, hm, rfl⟩
    rw [hqualified] at ht
    exact ⟨_, _, hs, ht, Session.alike_spelled _ c'.dialect c'.separator,
      fun steps => performAll_spelled steps (some _) c'.dialect c'.separator⟩

/-- The same steps in SQLite and in SQL Server; the last one fails, and with it goes the session. -/
theorem control_run_library :
    ∃ s t, Session.start Library.registry ⟨"Author"⟩ { dialect := .sqlite } = .ok s ∧
      Session.start Library.registry ⟨"Author"⟩ { dialect := .sqlserver, separator := "\n" } = .ok t ∧
      List.Forall₂ StepOutcome.Alike
        (Step.performAll (some s) [⟨.selectInto ⟨"Book"⟩, false⟩, ⟨.join .left ⟨"Author"⟩ ⟨"Shelf"⟩ none, true⟩])
        (Step.performAll (some t) [⟨.selectInto ⟨"Book"⟩, false⟩, ⟨.join .left ⟨"Author"⟩ ⟨"Shelf"⟩ none, true⟩]) := by
  rcases control_run Library.registry ⟨"Author"⟩ { dialect := .sqlite } { dialect := .sqlserver, separator := "\n" }
    (by decide) (by decide) rfl with ⟨e, he, -⟩ | ⟨s, t, hs, ht, -, h⟩
  · cases he
  · exact ⟨s, t, hs, ht, h _⟩

end SqlDraft
