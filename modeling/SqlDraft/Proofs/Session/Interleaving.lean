/-
  SqlDraft.Proofs.Session.Interleaving — calls on different parts of a statement commute. Each
  adds to its own part and is answered by the registry alone, and of the other parts only one
  thing reaches it: a filter is qualified if a join was made before it. So of a run without
  projections only the calls on each part matter, in their order, and on which side of the
  first join each filter stands (`run_interleaved`); where columns are qualified from the
  start, not even that.
-/

import SqlDraft.Proofs.Session.Tables

namespace SqlDraft

variable {r : Registry} {base : Model} {start : Bool} {calls calls' : List Call}

/-- The calls that add to a part. -/
def Calls.on (p : Part) (calls : List Call) : List Call := calls.filter fun c => c.part? = some p

namespace Session

/-- For each filter of a run, whether a join was made before it. -/
def sides (s : Session) (calls : List Call) : List Bool :=
  (withPast [] calls).filterMap fun (past, c) =>
    if c.part? = some .filters then some (!(s.madeJoins past).isEmpty) else none

/-- The calls of a run that add to a part, each with its answer. -/
def answers (s : Session) (p : Part) (calls : List Call) : List (Call × Except QueryError Reply) :=
  (withPast [] calls).filterMap fun (past, c) =>
    if c.part? = some p then some (c, ((s.run past).perform c).result) else none

theorem answers_eq (s : Session) (p : Part) (calls : List Call) :
    s.answers p calls = (Calls.on p calls).map fun c => (c, c.answer s.registry) := by
  rw [Calls.on, ← List.filterMap_eq_map, List.filterMap_filter, ← filterMap_withPast _ [], answers]
  refine List.filterMap_congr fun ⟨past, c⟩ _ => ?_
  by_cases hc : c.part? = some p
  · simp [hc, result_perform (s.run past) (c := c) (by simp [hc]), (run_frame s past).1]
  · simp [hc]

end Session

namespace Calls

/-! ## The contributions to a part -/

theorem part?_of_joined? {c : Call} {j : Joined} (h : c.joined? r = some j) : c.part? = some .joins := by
  cases c with
  | join => rfl
  | _ => cases h

theorem part?_of_orderTerm? {c : Call} {o : OrderTerm} (h : c.orderTerm? = some o) : c.part? = some .ordering := by
  cases c with
  | orderBy => rfl
  | _ => cases h

theorem part?_of_limit? {c : Call} {n : Nat} (h : c.limit? = some n) : c.part? = some .limit := by
  cases c with
  | limit => rfl
  | _ => cases h

theorem part?_of_offset? {c : Call} {n : Nat} (h : c.offset? = some n) : c.part? = some .offset := by
  cases c with
  | offset => rfl
  | _ => cases h

/-- What only calls on one part contribute depends on these alone. -/
theorem filterMap_eq {β : Type} {f : Call → Option β} {p : Part} (hf : ∀ {c b}, f c = some b → c.part? = some p)
    (h : on p calls' = on p calls) : calls'.filterMap f = calls.filterMap f := by
  have hon (cs : List Call) : (on p cs).filterMap f = cs.filterMap f := by
    rw [on, List.filterMap_filter]
    refine List.filterMap_congr fun c _ => ?_
    cases hc : f c with
    | none => simp
    | some b => simp [hf hc]
  rw [← hon, h, hon]

/-- The filters, each with whether columns are qualified at its moment. -/
def flagged (r : Registry) (start : Bool) (calls : List Call) : List (Call × Bool) :=
  (withPast [] calls).filterMap fun (past, c) =>
    if c.part? = some .filters then some (c, qualified r start past) else none

theorem filters_eq_flagged : filters r start calls = (flagged r start calls).filterMap fun (c, q) => c.filter? r q := by
  rw [filters, flagged, List.filterMap_filterMap]
  refine List.filterMap_congr fun ⟨past, c⟩ _ => ?_
  cases c <;> rfl

theorem calls_flagged : (flagged r start calls).map (·.1) = on .filters calls := by
  rw [flagged, List.map_filterMap, on, ← List.filterMap_eq_filter, ← filterMap_withPast _ []]
  refine List.filterMap_congr fun ⟨past, c⟩ _ => ?_
  by_cases hc : c.part? = some .filters <;> simp [hc, Option.guard]

theorem flagged_true : flagged r true calls = (on .filters calls).map (·, true) := by
  rw [on, ← List.filterMap_eq_map, List.filterMap_filter, ← filterMap_withPast _ [], flagged]
  refine List.filterMap_congr fun ⟨past, c⟩ _ => ?_
  by_cases hc : c.part? = some .filters <;> simp [hc, qualified]

/-- Without qualified columns at the start a filter is qualified just on the far side of the
    first join. -/
theorem flags_flagged (s : Session) : (flagged s.registry false calls).map (·.2) = s.sides calls := by
  rw [flagged, List.map_filterMap, Session.sides]
  refine List.filterMap_congr fun ⟨past, c⟩ _ => ?_
  by_cases hc : c.part? = some .filters
  · simp [hc, qualified, Session.madeJoins_eq]
  · simp [hc]

theorem filters_eq (s : Session) (hon : on .filters calls' = on .filters calls)
    (hsides : start = true ∨ s.sides calls' = s.sides calls) :
    filters s.registry start calls' = filters s.registry start calls := by
  have hflagged : flagged s.registry start calls' = flagged s.registry start calls := by
    cases start with
    | true => rw [flagged_true, flagged_true, hon]
    | false =>
      have hsides := hsides.resolve_left Bool.false_ne_true
      rw [List.zip_of_prod (calls_flagged.trans hon) ((flags_flagged s).trans hsides)]
      exact (List.zip_of_prod calls_flagged (flags_flagged s)).symm
  rw [filters_eq_flagged, hflagged, ← filters_eq_flagged]

end Calls

/-! ## Every run -/

attribute [ext] Session

namespace Session

theorem shape?_of_part? {c : Call} (hc : c.part?.isSome) (qualified : Bool) : c.shape? r base qualified = none := by
  cases c with
  | selectInto => cases hc
  | _ => rfl

/-- Without projections there is no SELECT list but that of the moment. -/
theorem unprojected_run (s : Session) (hparts : ∀ c ∈ calls, c.part?.isSome) :
    (s.run calls).projection = s.projection ∧ (s.run calls).cache = s.cache ∧ s.hasProjected calls = false := by
  induction calls using List.reverseRecOn with
  | nil => exact ⟨rfl, rfl, rfl⟩
  | append_singleton calls c ih =>
    obtain ⟨hprojection, hcache, hprojected⟩ := ih fun d hd => hparts d (List.mem_append_left _ hd)
    have hc : c.part?.isSome := hparts c (by simp)
    rw [run_concat, session_perform, hasProjected_concat, hprojected, shape?_of_part? hc]
    simp [after, shape?_of_part? hc, hprojection, hcache]

/-- Two runs without projections that have the same calls on each part, in the same order, give
    each call the same answer and come to the same session, if either columns are qualified
    from the start or each filter stands on the same side of the first join that is made. -/
theorem run_interleaved {type : ModelType} {c : Config} {s : Session} (h : Session.start r type c = .ok s)
    (hparts : ∀ call ∈ calls, call.part?.isSome) (hparts' : ∀ call ∈ calls', call.part?.isSome)
    (hon : ∀ p, Calls.on p calls' = Calls.on p calls) (hsides : c.qualified = true ∨ s.sides calls' = s.sides calls) :
    s.run calls' = s.run calls ∧ ∀ p, s.answers p calls' = s.answers p calls := by
  have hrun := account_run h calls
  have hrun' := account_run h calls'
  obtain ⟨-, hd, hsep, -⟩ := run_frame s calls
  obtain ⟨-, hd', hsep', -⟩ := run_frame s calls'
  obtain ⟨hprojection, hcache, hprojected⟩ := unprojected_run s hparts
  obtain ⟨hprojection', hcache', hprojected'⟩ := unprojected_run s hparts'
  obtain ⟨-, m, -, hs⟩ := start_eq_ok.mp h
  have hregistry : s.registry = r := by rw [hs]
  have hjoined : Calls.joined r calls' = Calls.joined r calls := Calls.filterMap_eq Calls.part?_of_joined? (hon .joins)
  refine ⟨Session.ext ?registry ?dialect ?separator ?base ?qualified ?tables ?joins ?filters ?projection ?cache
    ?ordering ?limit ?offset, fun p => by rw [answers_eq, hon, ← answers_eq]⟩
  case registry => rw [hrun'.registry_eq, hrun.registry_eq]
  case dialect => rw [hd', hd]
  case separator => rw [hsep', hsep]
  case base => rw [hrun'.base_eq, hrun.base_eq]
  case qualified => rw [hrun'.qualified_eq, hrun.qualified_eq, Calls.qualified, hjoined, Calls.qualified]
  case tables =>
    have hempty : s.tables = [] := by rw [hs]
    rw [tables_run hrun' hempty, tables_run hrun hempty, madeJoins_eq, madeJoins_eq, hregistry, hjoined, hprojected',
      hprojected, Calls.tables, hjoined, Calls.tables]
  case joins => rw [hrun'.joins_eq, hrun.joins_eq, hjoined]
  case filters =>
    have := Calls.filters_eq s (hon .filters) hsides
    rw [hregistry] at this
    rw [hrun'.filters_eq, hrun.filters_eq, this]
  case projection => rw [hprojection', hprojection]
  case cache => rw [hcache', hcache]
  case ordering =>
    rw [hrun'.ordering_eq, hrun.ordering_eq]
    exact Calls.filterMap_eq Calls.part?_of_orderTerm? (hon .ordering)
  case limit =>
    rw [hrun'.limit_eq, hrun.limit_eq, Calls.limit, Calls.filterMap_eq Calls.part?_of_limit? (hon .limit), Calls.limit]
  case offset =>
    rw [hrun'.offset_eq, hrun.offset_eq, Calls.offset, Calls.filterMap_eq Calls.part?_of_offset? (hon .offset),
      Calls.offset]

end Session

namespace Library

def nameGiven : Call := .filter .and (.single ⟨"Author"⟩ (.isNotNull ⟨⟨"Author"⟩, "name"⟩))

def titleGiven : Call := .filter .and (.single ⟨"Book"⟩ (.isNotNull ⟨⟨"Book"⟩, "title"⟩))

/-- One filter before the first join that is made and one after it; the other join fails. -/
def interleaved : List Call :=
  [.join .inner ⟨"Book"⟩ ⟨"Shelf"⟩ none, nameGiven, .join .left ⟨"Author"⟩ ⟨"Book"⟩ none, titleGiven,
    .orderBy ⟨⟨"Author"⟩, "name"⟩ .asc, .limit 5]

def reordered : List Call :=
  [.limit 5, nameGiven, .orderBy ⟨⟨"Author"⟩, "name"⟩ .asc, .join .inner ⟨"Book"⟩ ⟨"Shelf"⟩ none,
    .join .left ⟨"Author"⟩ ⟨"Book"⟩ none, titleGiven]

end Library

theorem run_interleaved_library :
    Library.session.sides Library.interleaved = [false, true] ∧
      Library.session.run Library.reordered = Library.session.run Library.interleaved ∧
      ∀ p, Library.session.answers p Library.reordered = Library.session.answers p Library.interleaved := by
  have hon : ∀ p, Calls.on p Library.reordered = Calls.on p Library.interleaved := by
    intro p
    cases p <;> rfl
  exact ⟨rfl, Session.run_interleaved Library.start_registry (by decide) (by decide) hon (.inr rfl)⟩

end SqlDraft
