/-
  SqlDraft.Proofs.Session.Trail — what a run leaves in the log. The records of a run are those
  of its calls, one after the other (`trail`), and steps leave those of the calls that found a
  session (`log_performAll`).

  A join that is made leaves one record, so the joins that were made can be read off the trail
  (`join?_trail`). So does a filter, with the text that it led to. A projection tells whether
  a list was at hand. That is between the state and what it keeps, but what is kept comes of
  the calls: there is a list for a shape and a number of tables just if the same projection
  was asked for before, at that number, and whether it was answered is of no account
  (`isSome_cached?_run`).
-/

import Mathlib.Data.List.Induction
import SqlDraft.Proofs.Projection.Entry
import SqlDraft.Proofs.Session.Atomic
import SqlDraft.Proofs.Session.Confined

namespace SqlDraft

/-! ## Records -/

namespace LogRecord

/-- The record as it is written. -/
def line (record : LogRecord) : LogLevel × String := (record.level, record.message)

/-- The join that a record is about: kind, target and source. -/
def join? : LogRecord → Option (JoinKind × String × String)
  | .joined kind target source => some (kind, target, source)
  | _ => none

end LogRecord

/-- What there is to tell of a join. -/
def Call.joinNames? (r : Registry) : Call → Option (JoinKind × String × String)
  | .join kind source target _ => do
    let a ← r.model? source
    let b ← r.model? target
    return (kind, b.name, a.name)
  | _ => none

/-- The fields of a shape that none of the tables declares. -/
def Model.missing (shape : Model) (tables : List Model) : List Field :=
  shape.fields.filter fun f => ∀ t ∈ tables, ∀ g ∈ t.fields, g.name ≠ f.name

theorem projectionNotes_eq (base : Model) (tables : List Model) (shape : Model) :
    projectionNotes base tables shape = (shape.missing tables).map fun f => .fieldFromBase f.name base.name := by
  refine congrArg (List.map _) (List.filter_congr fun f _ => ?_)
  rw [Bool.eq_iff_iff, Option.isNone_iff_eq_none, FieldIndex.get?_ofTables_eq_none_iff, decide_eq_true_iff]

namespace Session

variable {s : Session} {type : ModelType} {shape : Model}

/-! ## A call -/

theorem log_join (s : Session) (kind : JoinKind) (source target : ModelType) (on : Option Condition) :
    (s.perform (.join kind source target on)).log =
      ((Call.join kind source target on).joined? s.registry).elim [] fun j =>
        [.joined kind j.target.name j.source.name] := by
  simp only [perform, join_eq, Call.joined?]
  cases Joined.make s.registry kind source target on <;> rfl

/-- A filter that is made is told with the text it led to. -/
theorem log_filter {op : LogicalOp} {p : Predicate} (h : (s.perform (.filter op p)).result.isOk = true) :
    (s.perform (.filter op p)).log = [.filtered (s.perform (.filter op p)).session.whereText] := by
  simp only [perform, Session.filter] at h ⊢
  cases hp : p.resolve s.registry s.qualified with
  | error e =>
    rw [hp] at h
    cases h
  | ok fragment => rfl

/-- A join or a filter that is refused is not told. -/
theorem log_refused {c : Call} (hc : c.part? = some .joins ∨ c.part? = some .filters)
    (h : (s.perform c).result.isOk = false) : (s.perform c).log = [] := by
  cases hresult : (s.perform c).result with
  | error e => exact (refused_perform hc hresult).2
  | ok reply =>
    rw [hresult] at h
    cases h

/-- A list is at hand. -/
theorem told_of_cached (h : (s.cached? shape.type s.tablesWithBase.length).isSome) :
    s.told shape = [.projectionReused shape.name] := by
  obtain ⟨items, hitems⟩ := Option.isSome_iff_exists.mp h
  rw [told, hitems]

/-- A list is built. -/
theorem told_of_not_cached (h : ¬ (s.cached? shape.type s.tablesWithBase.length).isSome) :
    s.told shape = (shape.missing s.tablesWithBase).map (fun f => .fieldFromBase f.name s.base.name) ++
      [.projected shape.fields.length shape.name] := by
  rw [Option.not_isSome_iff_eq_none] at h
  rw [told, h, projected, h, projectionNotes_eq, Option.getD_none, projectionItems, List.length_map]

theorem join?_told (s : Session) (shape : Model) : (s.told shape).filterMap LogRecord.join? = [] := by
  by_cases h : (s.cached? shape.type s.tablesWithBase.length).isSome
  · rw [told_of_cached h]
    rfl
  · rw [told_of_not_cached h, List.filterMap_append, List.filterMap_map, List.append_eq_nil_iff]
    exact ⟨List.filterMap_eq_nil_iff.mpr fun _ _ => rfl, rfl⟩

/-- Only a join that is made leaves the record of one. -/
theorem join?_log (s : Session) (c : Call) : (s.perform c).log.filterMap LogRecord.join? =
    (if (s.perform c).result.isOk then c.joinNames? s.registry else none).toList := by
  have hother (h : c.joinNames? s.registry = none) :
      (if (s.perform c).result.isOk then c.joinNames? s.registry else none).toList = [] := by
    rw [h, ite_self, Option.toList_none]
  cases c with
  | join kind source target on =>
    rw [log_join, isOk_join]
    cases hj : (Call.join kind source target on).joined? s.registry with
    | none => rfl
    | some j =>
      obtain ⟨_, _, _, _, _, hcall, hsource, htarget, -⟩ := joined?_eq_some hj
      cases hcall
      simp [Call.joinNames?, LogRecord.join?, hsource, htarget]
  | filter op p =>
    rw [hother rfl]
    cases hok : (s.perform (.filter op p)).result.isOk with
    | true =>
      rw [log_filter hok]
      rfl
    | false =>
      rw [log_refused (.inr rfl) hok]
      rfl
  | selectInto type =>
    rw [hother rfl, log_selectInto]
    cases (Call.selectInto type).shape? s.registry s.base s.qualified with
    | none => rfl
    | some shape => exact join?_told s shape
  | _ => exact (hother rfl).symm

/-! ## Runs and steps -/

/-- The records of the calls, one after the other. -/
def trail (s : Session) : List Call → List LogRecord
  | [] => []
  | c :: calls => (s.perform c).log ++ (s.perform c).session.trail calls

/-- The joins among the calls that were made, in order. -/
def joinsMade (s : Session) : List Call → List (JoinKind × String × String)
  | [] => []
  | c :: calls => (if (s.perform c).result.isOk then c.joinNames? s.registry else none).toList ++
      (s.perform c).session.joinsMade calls

theorem trail_concat (s : Session) (calls : List Call) (c : Call) :
    s.trail (calls ++ [c]) = s.trail calls ++ ((s.run calls).perform c).log := by
  induction calls generalizing s with
  | nil => simp [trail, run]
  | cons d calls ih =>
    rw [List.cons_append, trail, ih, trail, List.append_assoc]
    rfl

theorem join?_trail (s : Session) (calls : List Call) :
    (s.trail calls).filterMap LogRecord.join? = s.joinsMade calls := by
  induction calls generalizing s with
  | nil => rfl
  | cons c calls ih => rw [trail, joinsMade, List.filterMap_append, join?_log, ih]

end Session

namespace Step

/-- The calls of the steps that find a session. -/
def taken : Option Session → List Step → List Call
  | some s, step :: steps => step.call :: taken (step.perform (some s)).session steps
  | _, _ => []

theorem log_performAll_none (steps : List Step) : (performAll none steps).flatMap (·.log) = [] := by
  induction steps with
  | nil => rfl
  | cons step steps ih => exact ih

theorem log_performAll (steps : List Step) (s : Session) :
    (performAll (some s) steps).flatMap (·.log) = s.trail (taken (some s) steps) := by
  induction steps generalizing s with
  | nil => rfl
  | cons step steps ih =>
    rw [performAll, List.flatMap_cons, taken, Session.trail, log_some, session_some]
    split
    · rw [log_performAll_none]
      cases steps <;> rfl
    · rw [ih]

end Step

namespace Session

variable {s : Session} {type : ModelType} {shape : Model}

/-! ## What is kept -/

/-- The projection onto a shape is asked for among the calls, with as many tables as take part
    after them. The base counts as one from the start, and if it is the shape columns are
    qualified by then. -/
def ProjectedBefore (s : Session) (calls : List Call) (type : ModelType) : Prop :=
  ∃ past, past ++ [.selectInto type] <+: calls ∧ (type = s.base.type → (s.run past).qualified = true) ∧
    (s.run past).tablesWithBase.length = (s.run calls).tablesWithBase.length

theorem isSome_cached?_iff (s : Session) (type : ModelType) (count : Nat) :
    (s.cached? type count).isSome ↔ ∃ e ∈ s.cache, e.shape = type ∧ e.tableCount = count := by
  simp [cached?]

theorem isSome_cached?_keeping {t : Session} (ht : t.cache = s.keeping shape) (count : Nat) :
    (t.cached? type count).isSome ↔
      (s.cached? type count).isSome ∨ shape.type = type ∧ s.tablesWithBase.length = count := by
  rw [isSome_cached?_iff, isSome_cached?_iff, ht, keeping]
  cases hc : s.cached? shape.type s.tablesWithBase.length with
  | some items =>
    -- Nothing is added, for it is there.
    have hkept := (isSome_cached?_iff s _ _).mp (Option.isSome_iff_exists.mpr ⟨items, hc⟩)
    refine ⟨.inl, ?_⟩
    rintro (h | ⟨rfl, rfl⟩)
    · exact h
    · exact hkept
  | none => simp [or_comm]

theorem shape?_eq_some_iff {c : Call} : c.shape? s.registry s.base s.qualified = some shape ↔
    c = .selectInto shape.type ∧ (shape.type = s.base.type → s.qualified = true) ∧
      s.registry.model? shape.type = some shape := by
  constructor
  · intro h
    cases c with
    | selectInto type =>
      rw [Call.shape?] at h
      split at h
      · cases h
      · rename_i hbase
        rw [Registry.type_of_model? h]
        exact ⟨rfl, by simpa using hbase, h⟩
    | _ => cases h
  · rintro ⟨rfl, hbase, hm⟩
    exact shape?_of_registered hm hbase

/-- What is kept after a call was kept before, or the call is the projection. -/
theorem isSome_cached?_after (hm : s.registry.model? type = some shape) (c : Call) (count : Nat) :
    ((s.after c).cached? type count).isSome ↔ (s.cached? type count).isSome ∨
      c = .selectInto type ∧ (type = s.base.type → s.qualified = true) ∧ s.tablesWithBase.length = count := by
  obtain rfl := Registry.type_of_model? hm
  cases hc : c.shape? s.registry s.base s.qualified with
  | none =>
    have hcache : (s.after c).cache = s.cache := by simp [after, hc]
    rw [isSome_cached?_iff, hcache, ← isSome_cached?_iff]
    refine ⟨.inl, ?_⟩
    rintro (h | ⟨hcall, hbase, -⟩)
    · exact h
    · rw [shape?_eq_some_iff.mpr ⟨hcall, hbase, hm⟩] at hc
      cases hc
  | some other =>
    have hcache : (s.after c).cache = s.keeping other := by simp [after, hc]
    obtain ⟨rfl, hbase, -⟩ := shape?_eq_some_iff.mp hc
    rw [isSome_cached?_keeping hcache]
    refine or_congr_right ⟨?_, ?_⟩
    · rintro ⟨htype, hcount⟩
      rw [← htype]
      exact ⟨rfl, hbase, hcount⟩
    · rintro ⟨hcall, -, hcount⟩
      exact ⟨Call.selectInto.inj hcall, hcount⟩

/-- What is kept after a run comes of the projections among its calls. -/
theorem isSome_cached?_run (hempty : s.cache = []) (hm : s.registry.model? type = some shape) (calls : List Call)
    (count : Nat) : ((s.run calls).cached? type count).isSome ↔
      ∃ past, past ++ [.selectInto type] <+: calls ∧ (type = s.base.type → (s.run past).qualified = true) ∧
        (s.run past).tablesWithBase.length = count := by
  induction calls using List.reverseRecOn with
  | nil =>
    have hnone : (s.run []).cached? type count = none := by simp [run, cached?, hempty]
    simp [hnone]
  | append_singleton calls c ih =>
    obtain ⟨hregistry, -, -, hbase⟩ := run_frame s calls
    rw [run_concat, session_perform, isSome_cached?_after (by rw [hregistry, hm]), ih, hbase]
    constructor
    · rintro (⟨past, hpast, h⟩ | ⟨rfl, h⟩)
      · exact ⟨past, hpast.trans (List.prefix_append _ _), h⟩
      · exact ⟨calls, List.prefix_rfl, h⟩
    · rintro ⟨past, hpast, h⟩
      rcases List.prefix_concat_iff.mp hpast with heq | hpast
      · obtain ⟨rfl, hcall⟩ := List.append_inj' heq rfl
        exact .inr ⟨(List.singleton_inj.mp hcall).symm, h⟩
      · exact .inl ⟨past, hpast, h⟩

/-! ## Every run -/

/-- What the log tells of the calls, and of a call after them. -/
structure Faithful (s : Session) (calls : List Call) : Prop where
  grows : ∀ c, s.trail (calls ++ [c]) = s.trail calls ++ ((s.run calls).perform c).log
  joins : (s.trail calls).filterMap LogRecord.join? = s.joinsMade calls
  joined : ∀ kind source target on, ((s.run calls).perform (.join kind source target on)).result.isOk = true →
    ∃ a b, s.registry.model? source = some a ∧ s.registry.model? target = some b ∧
      ((s.run calls).perform (.join kind source target on)).log.map LogRecord.line =
        [(.debug, kind.keywords ++ " " ++ b.name ++ " (from " ++ a.name ++ ")")]
  filtered : ∀ op p, ((s.run calls).perform (.filter op p)).result.isOk = true →
    ((s.run calls).perform (.filter op p)).log.map LogRecord.line =
      [(.trace, "WHERE now: " ++ ((s.run calls).perform (.filter op p)).session.whereText)]
  /-- A projection onto a registered shape, other than onto the base while columns are bare,
      is told as one that was asked for before or else in full. -/
  projected : ∀ type shape, s.registry.model? type = some shape →
    (type = s.base.type → (s.run calls).qualified = true) →
    (((s.run calls).perform (.selectInto type)).log.map LogRecord.line =
        [(.trace, "reusing projection for " ++ shape.name)] ↔ s.ProjectedBefore calls type) ∧
      (¬ s.ProjectedBefore calls type → ((s.run calls).perform (.selectInto type)).log.map LogRecord.line =
        (shape.missing (s.run calls).tablesWithBase).map (fun f =>
          (.trace, f.name ++ " not found in joined tables, reading from " ++ s.base.name)) ++
        [(.debug, "projecting " ++ toString shape.fields.length ++ " fields into " ++ shape.name)])
  /-- Nothing else is told. -/
  silent : ∀ c, ((s.run calls).perform c).log ≠ [] →
    (c.part? = some .joins ∨ c.part? = some .filters) ∧ ((s.run calls).perform c).result.isOk = true ∨
      ∃ type, c = .selectInto type ∧ (s.registry.model? type).isSome ∧
        (type = s.base.type → (s.run calls).qualified = true)
  /-- The steps of a run leave the trail of the calls that find a session. -/
  steps : ∀ steps, (Step.performAll (some s) steps).flatMap (·.log) = s.trail (Step.taken (some s) steps)

/-- Every call is told as what it came to, if it came to anything. -/
theorem faithful_run {r : Registry} {base : ModelType} {c : Config} (h : Session.start r base c = .ok s)
    (calls : List Call) : Faithful s calls := by
  have hempty : s.cache = [] := by
    obtain ⟨-, m, -, rfl⟩ := start_eq_ok.mp h
    rfl
  obtain ⟨hregistry, -, -, hbase⟩ := run_frame s calls
  constructor
  case grows => exact trail_concat s calls
  case joins => exact join?_trail s calls
  case joined =>
    intro kind source target on hok
    rw [isOk_join, hregistry] at hok
    obtain ⟨j, hj⟩ := Option.isSome_iff_exists.mp hok
    rw [log_join, hregistry, hj]
    obtain ⟨_, _, _, _, _, hcall, hsource, htarget, -⟩ := joined?_eq_some hj
    cases hcall
    exact ⟨j.source, j.target, hsource, htarget, rfl⟩
  case filtered =>
    intro op p hok
    rw [log_filter hok]
    rfl
  case projected =>
    intro type shape hm hpast
    obtain rfl := Registry.type_of_model? hm
    rw [← hregistry] at hm
    rw [← hbase] at hpast
    rw [log_selectInto, shape?_of_registered hm hpast, Option.elim_some]
    have hkept : ((s.run calls).cached? shape.type (s.run calls).tablesWithBase.length).isSome ↔
        s.ProjectedBefore calls shape.type :=
      isSome_cached?_run hempty (hregistry ▸ hm) calls _
    by_cases hcached : ((s.run calls).cached? shape.type (s.run calls).tablesWithBase.length).isSome
    · have hbefore := hkept.mp hcached
      rw [told_of_cached hcached]
      exact ⟨iff_of_true rfl hbefore, absurd hbefore⟩
    · have hbefore := mt hkept.mpr hcached
      rw [told_of_not_cached hcached, hbase, List.map_append, List.map_map]
      refine ⟨iff_of_false (fun heq => ?_) hbefore, fun _ => rfl⟩
      -- The last record is one of the other level.
      have hlast := congrArg List.getLast? heq
      rw [List.map_singleton, List.getLast?_concat] at hlast
      cases hlast
  case silent =>
    intro c hlog
    cases c with
    | join kind source target on =>
      exact .inl ⟨.inl rfl, Bool.of_not_eq_false fun hok => hlog (log_refused (.inl rfl) hok)⟩
    | filter op p =>
      exact .inl ⟨.inr rfl, Bool.of_not_eq_false fun hok => hlog (log_refused (.inr rfl) hok)⟩
    | selectInto type =>
      rw [log_selectInto] at hlog
      cases hshape : (Call.selectInto type).shape? (s.run calls).registry (s.run calls).base
          (s.run calls).qualified with
      | none => exact absurd (by rw [hshape]; rfl) hlog
      | some shape =>
        obtain ⟨hcall, hpast, hm⟩ := shape?_eq_some_iff.mp hshape
        cases hcall
        rw [hbase] at hpast
        rw [hregistry] at hm
        exact .inr ⟨shape.type, rfl, Option.isSome_iff_exists.mpr ⟨shape, hm⟩, hpast⟩
    | _ => exact absurd rfl hlog
  case steps => exact fun steps => Step.log_performAll steps s

end Session

/-- There are no shelves to join, and the ordering is at fault, so the projection fails too. -/
def Library.told : List Call :=
  [.join .inner ⟨"Book"⟩ ⟨"Shelf"⟩ none, .join .left ⟨"Author"⟩ ⟨"Book"⟩ none,
    .orderBy ⟨⟨"Author"⟩, "born"⟩ .asc, .selectInto ⟨"Book"⟩]

/-- The one join that was made is told, and the next projection uses what the failed one left. -/
theorem faithful_run_library :
    (Library.session.trail Library.told).filterMap LogRecord.join? = [(.left, "book", "author")] ∧
      ((Library.session.run Library.told).perform (.selectInto ⟨"Book"⟩)).log.map LogRecord.line =
        [(.trace, "reusing projection for book")] := by
  have h := Session.faithful_run Library.start_registry Library.told
  have hbefore : Library.session.ProjectedBefore Library.told ⟨"Book"⟩ :=
    ⟨Library.told.take 3, List.prefix_rfl, nofun, rfl⟩
  exact ⟨h.joins.trans rfl, (h.projected ⟨"Book"⟩ Library.book rfl nofun).1.mpr hbefore⟩

end SqlDraft
