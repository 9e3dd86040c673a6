/-
  SqlDraft.Proofs.Session.Cache — the kept SELECT lists show in nothing but the log.

  A list is kept under its shape and the number of tables of that moment. Tables are added
  at the end only and the base is always the first, so a number of tables says which they
  are (`prefix_tables_after`), and a kept list is the one that would be built from them
  (`CacheSound`, kept by every call: `cacheSound_after`).

  Beside the session stands one that keeps nothing and builds every list (`performAfresh`).
  From the same session the two give the same results and come to the same session but for
  what is kept (`performAfresh_withoutCache`, `runAfresh_eq`).
-/

import SqlDraft.Proofs.Session.Step

namespace SqlDraft

/-! ## Kept lists -/

/-- The list is that of a registered shape and of the first `tableCount` tables. -/
structure CachedProjection.Sound (r : Registry) (base : Model) (tables : List Model) (e : CachedProjection) : Prop where
  items_eq : ∃ shape, r.model? e.shape = some shape ∧ e.items = projectionItems base (tables.take e.tableCount) shape
  one_le : 1 ≤ e.tableCount
  le_length : e.tableCount ≤ tables.length

theorem CachedProjection.Sound.mono {r : Registry} {base : Model} {tables more : List Model} {e : CachedProjection}
    (h : e.Sound r base tables) (hp : tables <+: more) : e.Sound r base more := by
  obtain ⟨shape, hr, hi⟩ := h.items_eq
  refine ⟨⟨shape, hr, ?_⟩, h.one_le, Nat.le_trans h.le_length hp.length_le⟩
  obtain ⟨rest, rfl⟩ := hp
  rw [hi, List.take_append_of_le_length h.le_length]

namespace Session

def CacheSound (s : Session) : Prop := ∀ e ∈ s.cache, e.Sound s.registry s.base s.tables

theorem exists_of_cached? {s : Session} {shape : ModelType} {n : Nat} {items : List SelectItem}
    (h : s.cached? shape n = some items) : ∃ e ∈ s.cache, e.shape = shape ∧ e.tableCount = n ∧ e.items = items := by
  unfold cached? at h
  obtain ⟨e, he, rfl⟩ := Option.map_eq_some_iff.mp h
  have := List.find?_some he
  simp only [decide_eq_true_eq] at this
  exact ⟨e, List.mem_of_find?_eq_some he, this.1, this.2, rfl⟩

/-- A list at hand is the one that would be built. -/
theorem projected_eq {s : Session} (h : s.CacheSound) {shape : Model} (hr : s.registry.model? shape.type = some shape) :
    s.projected shape = projectionItems s.base s.tablesWithBase shape := by
  unfold projected
  cases hc : s.cached? shape.type s.tablesWithBase.length with
  | none => rfl
  | some items =>
    obtain ⟨e, he, hshape, hcount, rfl⟩ := exists_of_cached? hc
    obtain ⟨model, hm, hitems⟩ := (h e he).items_eq
    have hle := (h e he).le_length
    have htables : s.tables.take e.tableCount = s.tablesWithBase := by
      unfold tablesWithBase at hcount ⊢
      split at hcount
      · -- No list is kept before there are tables.
        rename_i hempty
        simp only [List.isEmpty_iff.mp hempty, List.length_nil, List.length_singleton] at hle hcount
        omega
      · rename_i hne
        rw [if_neg hne, hcount, List.take_length]
    rw [hshape, hr] at hm
    cases hm
    rw [Option.getD_some, hitems, htables]

theorem prefix_tablesWithBase (s : Session) : s.tables <+: s.tablesWithBase := by
  unfold tablesWithBase
  split
  · rename_i h
    rw [List.isEmpty_iff.mp h]
    exact List.nil_prefix
  · exact List.prefix_rfl

/-- Tables are only added, at the end. -/
theorem prefix_tables_after (s : Session) (c : Call) : s.tables <+: (s.after c).tables := by
  simp only [after]
  cases c.joined? s.registry with
  | some j => exact (prefix_tablesWithBase s).trans (prefix_extend _ j)
  | none =>
    simp only [Option.map_none, Option.getD_none]
    split
    · exact prefix_tablesWithBase s
    · exact List.prefix_rfl

theorem joined?_of_shape? {r : Registry} {base shape : Model} {qualified : Bool} {c : Call}
    (h : c.shape? r base qualified = some shape) : c.joined? r = none := by
  cases c with
  | join => cases h
  | _ => rfl

theorem model?_of_shape? {r : Registry} {base shape : Model} {qualified : Bool} {c : Call}
    (h : c.shape? r base qualified = some shape) : r.model? shape.type = some shape := by
  cases c with
  | selectInto type =>
    simp only [Call.shape?] at h
    split at h
    · cases h
    · rwa [Registry.type_of_model? h]
  | _ => cases h

theorem one_le_length_tablesWithBase (s : Session) : 1 ≤ s.tablesWithBase.length :=
  List.length_pos_iff.mpr (tablesWithBase_ne_nil s)

theorem cacheSound_after {s : Session} (h : s.CacheSound) (c : Call) : (s.after c).CacheSound := by
  have hold : ∀ e ∈ s.cache, e.Sound s.registry s.base (s.after c).tables :=
    fun e he => (h e he).mono (prefix_tables_after s c)
  intro e he
  show e.Sound s.registry s.base (s.after c).tables
  cases hshape : c.shape? s.registry s.base s.qualified with
  | none =>
    simp only [after, hshape, Option.map_none, Option.getD_none] at he
    exact hold e he
  | some shape =>
    have htables : (s.after c).tables = s.tablesWithBase := by simp [after, hshape, joined?_of_shape? hshape]
    simp only [after, hshape, Option.map_some, Option.getD_some, keeping] at he
    split at he
    · exact hold e he
    · rcases List.mem_cons.mp he with rfl | he
      · rw [htables]
        refine ⟨⟨shape, model?_of_shape? hshape, ?_⟩, one_le_length_tablesWithBase s, Nat.le_refl _⟩
        rw [projected_eq h (model?_of_shape? hshape), List.take_length]
      · exact hold e he

/-! ## Without kept lists -/

/-- Projects with a list that is built in any case. -/
def projectAfresh (s : Session) (shape : ModelType) : Except QueryError (Session × List LogRecord) :=
  if shape = s.base.type ∧ s.qualified = false then .ok (s, [])
  else do
    let model ← s.registry.require shape
    let items := projectionItems s.base s.tablesWithBase model
    return ({ s with tables := s.tablesWithBase, projection := some items },
      projectionNotes s.base s.tablesWithBase model ++ [.projected items.length model.name])

def selectIntoAfresh (s : Session) (shape : ModelType) : Outcome :=
  match s.projectAfresh shape with
  | .ok (t, log) => ⟨t.statement.map .statement, t, log⟩
  | .error e => ⟨.error e, s, []⟩

def performAfresh (s : Session) : Call → Outcome
  | .selectInto shape => s.selectIntoAfresh shape
  | c => s.perform c

def runAfresh (s : Session) (calls : List Call) : Session := calls.foldl (fun s c => (s.performAfresh c).session) s

def withoutCache (s : Session) : Session := { s with cache := [] }

/-- The results of two outcomes are the same, and so are the sessions but for what is kept. -/
def Matches (o p : Outcome) : Prop := p.result = o.result ∧ p.session = o.session.withoutCache

theorem matches_join (s : Session) (kind : JoinKind) (source target : ModelType) (on : Option Condition) :
    Matches (s.perform (.join kind source target on)) (s.withoutCache.perform (.join kind source target on)) := by
  have hregistry : s.withoutCache.registry = s.registry := rfl
  simp only [perform, join_eq, hregistry]
  cases Joined.make s.registry kind source target on <;> exact ⟨rfl, rfl⟩

theorem matches_filter (s : Session) (op : LogicalOp) (p : Predicate) :
    Matches (s.perform (.filter op p)) (s.withoutCache.perform (.filter op p)) := by
  simp only [perform, Session.filter, withoutCache]
  cases p.resolve s.registry s.qualified <;> exact ⟨rfl, rfl⟩

theorem projectAfresh_eq (s : Session) (shape : ModelType) :
    s.withoutCache.projectAfresh shape =
      if shape = s.base.type ∧ s.qualified = false then .ok (s.withoutCache, [])
      else (s.registry.require shape).map fun model =>
        ({ s.withoutCache with
            tables := s.tablesWithBase
            projection := some (projectionItems s.base s.tablesWithBase model) },
          projectionNotes s.base s.tablesWithBase model ++
            [.projected (projectionItems s.base s.tablesWithBase model).length model.name]) := by
  rfl

theorem matches_selectInto {s : Session} (h : s.CacheSound) (shape : ModelType) :
    Matches (s.selectInto shape) (s.withoutCache.selectIntoAfresh shape) := by
  simp only [selectInto, selectIntoAfresh, project_eq, projectAfresh_eq]
  by_cases hbase : shape = s.base.type ∧ s.qualified = false
  · simp only [if_pos hbase]
    exact ⟨rfl, rfl⟩
  · simp only [if_neg hbase, Registry.require]
    cases hm : s.registry.model? shape with
    | none => exact ⟨rfl, rfl⟩
    | some model =>
      have hr : s.registry.model? model.type = some model := by rwa [Registry.type_of_model? hm]
      simp only [Except.map, projected_eq h hr]
      exact ⟨rfl, rfl⟩

theorem performAfresh_withoutCache {s : Session} (h : s.CacheSound) (c : Call) :
    Matches (s.perform c) (s.withoutCache.performAfresh c) := by
  cases c with
  | join kind source target on => exact matches_join s kind source target on
  | filter op p => exact matches_filter s op p
  | selectInto shape => exact matches_selectInto h shape
  | _ => exact ⟨rfl, rfl⟩

theorem runAfresh_concat (s : Session) (calls : List Call) (c : Call) :
    s.runAfresh (calls ++ [c]) = ((s.runAfresh calls).performAfresh c).session := by
  simp [runAfresh]

/-! ## Runs -/

theorem runAfresh_eq {s : Session} (h : s.CacheSound) (calls : List Call) :
    s.withoutCache.runAfresh calls = (s.run calls).withoutCache ∧ (s.run calls).CacheSound := by
  refine run_induction (motive := fun calls t => s.withoutCache.runAfresh calls = t.withoutCache ∧ t.CacheSound)
    ⟨rfl, h⟩ ?_ calls
  rintro calls t c ⟨heq, ht⟩
  refine ⟨?_, cacheSound_after ht c⟩
  rw [runAfresh_concat, heq, ← session_perform]
  exact (performAfresh_withoutCache ht c).2

/-! ## The same projection again -/

theorem result_selectInto (s : Session) (shape : ModelType) :
    (s.perform (.selectInto shape)).result =
      if (shape = s.base.type ∧ s.qualified = false) ∨ (s.registry.model? shape).isSome then
        (s.after (.selectInto shape)).statement.map .statement
      else .error (.notRegistered shape) := by
  rw [← session_perform]
  simp only [perform, selectInto, project_eq]
  by_cases hbase : shape = s.base.type ∧ s.qualified = false
  · rw [if_pos hbase, if_pos (.inl hbase)]
  · simp only [hbase, if_false, false_or, Registry.require]
    cases s.registry.model? shape <;> rfl

theorem projection_after (s : Session) (c : Call) :
    (s.after c).projection = ((c.shape? s.registry s.base s.qualified).map s.projected).or s.projection := rfl

/-- The second time a list for the same shape and the same tables is at hand. -/
theorem projection_after_twice {s : Session} (h : s.CacheSound) (shape : ModelType) :
    ((s.after (.selectInto shape)).after (.selectInto shape)).projection = (s.after (.selectInto shape)).projection := by
  have hagain : (Call.selectInto shape).shape? (s.after (.selectInto shape)).registry (s.after (.selectInto shape)).base
      (s.after (.selectInto shape)).qualified = (Call.selectInto shape).shape? s.registry s.base s.qualified := by
    simp [after, Call.joined?]
  have htables : (s.after (.selectInto shape)).tablesWithBase = s.tablesWithBase := by
    rw [tablesWithBase_after]
    rfl
  rw [projection_after (s.after _), hagain]
  cases hshape : (Call.selectInto shape).shape? s.registry s.base s.qualified with
  | none => rfl
  | some model =>
    have hr := model?_of_shape? hshape
    have hsame : (s.after (.selectInto shape)).projected model = s.projected model := by
      rw [projected_eq (cacheSound_after h _) hr, projected_eq h hr, htables]
      rfl
    rw [projection_after s, hshape, Option.map_some, Option.map_some, hsame]
    rfl

/-- A statement depends neither on the tables nor on what is kept. -/
theorem statement_after_selectInto {s : Session} {shape : ModelType}
    (h : (s.after (.selectInto shape)).projection = s.projection) :
    (s.after (.selectInto shape)).statement = s.statement := by
  have hitems : (s.after (.selectInto shape)).items = s.items := by
    unfold items
    rw [h]
    simp [after, Call.joined?]
  simp only [statement, draft, hitems]
  simp [after, Call.joined?, Call.filter?, Call.orderTerm?, Call.limit?, Call.offset?]

theorem result_selectInto_twice {s : Session} (h : s.CacheSound) {shape : ModelType} {reply : Reply}
    (hr : (s.perform (.selectInto shape)).result = .ok reply) :
    ((s.perform (.selectInto shape)).session.perform (.selectInto shape)).result = .ok reply := by
  rw [session_perform]
  rw [result_selectInto] at hr ⊢
  rw [statement_after_selectInto (projection_after_twice h shape)]
  have hq : (s.after (.selectInto shape)).qualified = s.qualified := by simp [after, Call.joined?]
  rw [hq]
  exact hr

/-! ## Every run -/

/-- The kept lists of a session are at any time those that would be built afresh, and a
    session that keeps none gives the same results on the way and shows the same parts. -/
theorem cache_transparent {r : Registry} {base : ModelType} {c : Config} {s : Session}
    (h : Session.start r base c = .ok s) (calls : List Call) :
    (∀ e ∈ (s.run calls).cache, e.Sound r s.base (s.run calls).tables) ∧
      (∀ call, ((s.runAfresh calls).performAfresh call).result = ((s.run calls).perform call).result) ∧
      (s.runAfresh calls).fromText = (s.run calls).fromText ∧
      (s.runAfresh calls).whereText = (s.run calls).whereText ∧
      (s.runAfresh calls).selectText = (s.run calls).selectText ∧
      (s.runAfresh calls).tables = (s.run calls).tables ∧
      (s.runAfresh calls).qualified = (s.run calls).qualified ∧
      ∀ shape reply, ((s.run calls).perform (.selectInto shape)).result = .ok reply →
        ((s.run (calls ++ [.selectInto shape])).perform (.selectInto shape)).result = .ok reply := by
  obtain ⟨-, m, -, hs⟩ := start_eq_ok.mp h
  have hempty : s.cache = [] := by rw [hs]
  have hsound : s.CacheSound := by
    intro e he
    rw [hempty] at he
    cases he
  have hsame : s.withoutCache = s := by rw [hs]; rfl
  obtain ⟨hafresh, hrun⟩ := runAfresh_eq hsound calls
  rw [hsame] at hafresh
  obtain ⟨hr, -, -, hb⟩ := run_frame s calls
  have hregistry : (s.run calls).registry = r := by rw [hr, hs]
  refine ⟨?_, ?_, ?_, ?_, ?_, ?_, ?_, ?_⟩
  · intro e he
    rw [← hregistry, ← hb]
    exact hrun e he
  · intro call
    rw [hafresh]
    exact (performAfresh_withoutCache hrun call).1
  · rw [hafresh]; rfl
  · rw [hafresh]; rfl
  · rw [hafresh]; rfl
  · rw [hafresh]; rfl
  · rw [hafresh]; rfl
  · intro shape reply hok
    rw [run_concat]
    exact result_selectInto_twice hrun hok

theorem cache_transparent_library :
    (Library.session.run [.selectInto ⟨"Book"⟩]).cache.length = 1 ∧
      ∀ call, ((Library.session.runAfresh [.selectInto ⟨"Book"⟩]).performAfresh call).result =
        ((Library.session.run [.selectInto ⟨"Book"⟩]).perform call).result :=
  ⟨rfl, (cache_transparent Library.start_registry _).2.1⟩

end Session

end SqlDraft
