/-
  SqlDraft.Proofs.Session.Extension — sessions over a registry that has grown since. A session
  asks its registry for models and nothing else, so a call that succeeds does the same in a
  session whose registry finds more (`perform_within`), and so does every step of a run in
  which none fails (`performAll_within`). With the lookups, the predicates and the
  relationships this is what registering more models leaves alone
  (`registerAll_lasting`).

  A step that fails need not fail later: a model it asks for may have been registered.
-/

import SqlDraft.Proofs.Registry.Extension
import SqlDraft.Proofs.Session.Step

namespace SqlDraft

open Registry (Extends)

variable {r r' : Registry}

/-! ## What a call looks up -/

theorem JoinCondition.make_of_extends (h : r.Extends r') {source target : Model} {on : Option Condition}
    {condition : JoinCondition} (hc : make r source target on = .ok condition) :
    make r' source target on = .ok condition := by
  cases on with
  | none => exact hc
  | some given =>
    obtain ⟨f, hf, rfl⟩ := Except.map_eq_ok.mp hc
    exact Except.map_eq_ok.mpr ⟨f, h.resolve hf, rfl⟩

theorem Joined.make_of_extends (h : r.Extends r') {kind : JoinKind} {source target : ModelType} {on : Option Condition}
    {j : Joined} (hj : make r kind source target on = .ok j) : make r' kind source target on = .ok j := by
  obtain ⟨sourceModel, hs, hj⟩ := Except.bind_eq_ok.mp hj
  obtain ⟨targetModel, ht, hj⟩ := Except.bind_eq_ok.mp hj
  obtain ⟨condition, hc, hj⟩ := Except.bind_eq_ok.mp hj
  exact Except.bind_eq_ok.mpr ⟨sourceModel, h.require hs, Except.bind_eq_ok.mpr ⟨targetModel, h.require ht,
    Except.bind_eq_ok.mpr ⟨condition, JoinCondition.make_of_extends h hc, hj⟩⟩⟩

theorem OrderTerm.resolve_of_extends (h : r.Extends r') {qualified : Bool} {o : OrderTerm} {key : SortKey}
    (hk : o.resolve r qualified = .ok key) : o.resolve r' qualified = .ok key := by
  unfold OrderTerm.resolve at hk ⊢
  split at hk
  · cases hk
  · rename_i m hm
    rw [h.model? hm]
    exact hk

theorem mapM_resolve_of_extends (h : r.Extends r') {qualified : Bool} {terms : List OrderTerm} {keys : List SortKey}
    (hk : terms.mapM (OrderTerm.resolve r qualified) = .ok keys) :
    terms.mapM (OrderTerm.resolve r' qualified) = .ok keys := by
  have hterms := Except.mapM_eq_ok.mp hk
  exact Except.mapM_eq_ok.mpr (hterms.imp fun _ _ => OrderTerm.resolve_of_extends h)

/-! ## A call -/

/-- The session with another registry behind it. -/
def Session.within (s : Session) (r : Registry) : Session := { s with registry := r }

/-- The same outcome, of a session with another registry. -/
def Outcome.within (o : Outcome) (r : Registry) : Outcome := { o with session := o.session.within r }

def StepOutcome.within (o : StepOutcome) (r : Registry) : StepOutcome :=
  { o with session := o.session.map (·.within r) }

namespace Session

variable {s : Session}

theorem statement_within (h : s.registry.Extends r') {text : String} (ht : s.statement = .ok text) :
    (s.within r').statement = .ok text := by
  obtain ⟨drafted, hd, rfl⟩ := Except.map_eq_ok.mp ht
  obtain ⟨keys, hk, hd⟩ := Except.bind_eq_ok.mp hd
  have hdraft : (s.within r').draft = .ok drafted := Except.bind_eq_ok.mpr ⟨keys, mapM_resolve_of_extends h hk, hd⟩
  exact Except.map_eq_ok.mpr ⟨drafted, hdraft, rfl⟩

theorem project_within (h : s.registry.Extends r') {shape : ModelType} {t : Session} {log : List LogRecord}
    (hp : s.project shape = .ok (t, log)) : (s.within r').project shape = .ok (t.within r', log) := by
  rw [project_eq] at hp ⊢
  by_cases hbase : shape = s.base.type ∧ s.qualified = false
  · rw [if_pos hbase] at hp
    cases hp
    exact if_pos hbase
  · rw [if_neg hbase] at hp
    obtain ⟨model, hm, hp⟩ := Except.map_eq_ok.mp hp
    cases hp
    exact (if_neg hbase).trans (Except.map_eq_ok.mpr ⟨model, h.require hm, rfl⟩)

/-- What succeeds over a registry does the same over a larger one. -/
theorem perform_within (h : s.registry.Extends r') {c : Call} {reply : Reply} (hc : (s.perform c).result = .ok reply) :
    (s.within r').perform c = (s.perform c).within r' := by
  cases c with
  | join kind source target on =>
    cases hj : Joined.make s.registry kind source target on with
    | error e =>
      simp only [perform, join_eq, hj] at hc
      cases hc
    | ok j =>
      have hj' : Joined.make (s.within r').registry kind source target on = .ok j := Joined.make_of_extends h hj
      simp only [perform, join_eq, hj, hj']
      rfl
  | filter op p =>
    cases hf : p.resolve s.registry s.qualified with
    | error e =>
      simp only [perform, Session.filter, hf] at hc
      cases hc
    | ok f =>
      have hf' : p.resolve (s.within r').registry (s.within r').qualified = .ok f := h.resolve hf
      simp only [perform, Session.filter, hf, hf']
      rfl
  | selectInto shape =>
    simp only [perform, selectInto] at hc ⊢
    cases hp : s.project shape with
    | error e =>
      rw [hp] at hc
      cases hc
    | ok projected =>
      obtain ⟨t, log⟩ := projected
      rw [hp] at hc
      obtain ⟨text, ht, -⟩ := Except.map_eq_ok.mp hc
      have hregistry : t.registry = s.registry := by
        have := session_selectInto s shape
        simp only [perform, selectInto, hp] at this
        rw [this]
        rfl
      have ht' : (t.within r').statement = .ok text := statement_within (by rwa [hregistry]) ht
      simp only [project_within h hp, Outcome.within, ht, ht']
  | statement =>
    obtain ⟨text, ht, -⟩ := Except.map_eq_ok.mp hc
    simp only [perform, Outcome.within, ht, statement_within h ht]
  | _ => rfl

theorem start_within (h : r.Extends r') {base : ModelType} {c : Config} (hs : Session.start r base c = .ok s) :
    Session.start r' base c = .ok (s.within r') := by
  obtain ⟨hc, m, hm, rfl⟩ := start_eq_ok.mp hs
  exact start_eq_ok.mpr ⟨hc, m, h.model? hm, rfl⟩

end Session

/-! ## A run -/

theorem Step.perform_within {s : Session} (h : s.registry.Extends r') (step : Step)
    (hok : (step.perform (some s)).result.isOk = true) :
    step.perform (some (s.within r')) = (step.perform (some s)).within r' := by
  cases hc : (s.perform step.call).result with
  | error e =>
    simp only [Step.perform, hc] at hok
    cases hok
  | ok reply =>
    have hcall := Session.perform_within h hc
    simp only [Step.perform, hcall]
    simp only [Outcome.within, StepOutcome.within, hc, Option.map_some]

/-- After a step that succeeds there is a session, over the same registry. -/
theorem Step.session_of_isOk {s : Session} (step : Step) (hok : (step.perform (some s)).result.isOk = true) :
    ∃ t, (step.perform (some s)).session = some t ∧ t.registry = s.registry := by
  refine ⟨(s.perform step.call).session, ?_, ?_⟩
  · simp only [Step.perform] at hok ⊢
    split at hok
    · rfl
    · cases hok
  · rw [Session.session_perform]
    rfl

theorem performAll_within {s : Session} (h : s.registry.Extends r') (steps : List Step)
    (hok : ∀ o ∈ Step.performAll (some s) steps, o.result.isOk = true) :
    Step.performAll (some (s.within r')) steps = (Step.performAll (some s) steps).map (·.within r') := by
  induction steps generalizing s with
  | nil => rfl
  | cons step steps ih =>
    have hfirst := hok _ List.mem_cons_self
    obtain ⟨t, ht, hregistry⟩ := step.session_of_isOk hfirst
    have hrest := fun o ho => hok o (List.mem_cons_of_mem _ ho)
    rw [ht] at hrest
    simp only [Step.performAll, List.map_cons, Step.perform_within h step hfirst, StepOutcome.within, ht, Option.map_some]
    rw [ih (by rwa [hregistry]) hrest]
    rfl

/-! ## Further registrations -/

/-- Whatever has been answered over `r` is answered the same over `r'`. -/
structure Lasting (r r' : Registry) : Prop where
  models : ∀ type m, r.require type = .ok m → r'.require type = .ok m
  named : ∀ name m, r.named? name = some m → r'.named? name = some m
  predicates : ∀ d qualified p text, Predicate.toSql r d qualified p = .ok text →
    Predicate.toSql r' d qualified p = .ok text
  /-- Two models that are registered have the same relationship, or none as before. -/
  relationships : ∀ source target s t, r.require source = .ok s → r.require target = .ok t →
    ∃ s' t', r'.require source = .ok s' ∧ r'.require target = .ok t' ∧
      Relationship.infer s' t' = Relationship.infer s t
  starts : ∀ base c s, Session.start r base c = .ok s → Session.start r' base c = .ok (s.within r')
  /-- Steps that all succeed have the same results, sessions and records. -/
  runs : ∀ base c s, Session.start r base c = .ok s → ∀ steps,
    (∀ o ∈ Step.performAll (some s) steps, o.result.isOk = true) →
    Step.performAll (some (s.within r')) steps = (Step.performAll (some s) steps).map (·.within r')

/-- Requests for registration, whether accepted or refused, change no answer already given. -/
theorem registerAll_lasting (r : Registry) (qs : List Registration) : Lasting r (r.registerAll qs) := by
  have h : r.Extends (r.registerAll qs) := r.extends_registerAll qs
  constructor
  case models => exact fun _ _ => h.require
  case named => exact fun _ _ => h.named?
  case predicates => exact fun _ _ _ _ => h.toSql
  case relationships => exact fun _ _ s t hs ht => ⟨s, t, h.require hs, h.require ht, rfl⟩
  case starts => exact fun _ _ _ => Session.start_within h
  case runs =>
    intro base c s hs steps hok
    obtain ⟨-, m, -, rfl⟩ := Session.start_eq_ok.mp hs
    exact performAll_within h steps hok

namespace Library

def shelf : Model := { type := ⟨"Shelf"⟩, name := "shelf", fields := [{ name := "authorId", references := some ⟨"Author"⟩ }] }

def listing : List Step :=
  [⟨.join .left ⟨"Author"⟩ ⟨"Book"⟩ none, true⟩,
    ⟨.filter .and (.single ⟨"Book"⟩ (.isNotNull ⟨⟨"Book"⟩, "title"⟩)), false⟩,
    ⟨.orderBy ⟨⟨"Author"⟩, "name"⟩ .asc, true⟩, ⟨.selectInto ⟨"Book"⟩, false⟩]

end Library

/-- A table without a key is refused, a shape that links to the base is taken. -/
theorem registerAll_lasting_library :
    (Library.registry.registerAll [.table Library.shelf, .shape Library.shelf]).models =
        [Library.author, Library.book, Library.shelf] ∧
      (∀ o ∈ Step.performAll (some Library.session) Library.listing, o.result.isOk = true) ∧
      Step.performAll
          (some (Library.session.within (Library.registry.registerAll [.table Library.shelf, .shape Library.shelf])))
          Library.listing =
        (Step.performAll (some Library.session) Library.listing).map
          (·.within (Library.registry.registerAll [.table Library.shelf, .shape Library.shelf])) := by
  have hok : ∀ o ∈ Step.performAll (some Library.session) Library.listing, o.result.isOk = true := by
    decide
  exact ⟨rfl, hok, (registerAll_lasting Library.registry [.table Library.shelf, .shape Library.shelf]).runs
    ⟨"Author"⟩ { dialect := .sqlite } Library.session Library.start_registry Library.listing hok⟩

end SqlDraft
