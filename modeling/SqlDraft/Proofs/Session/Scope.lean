/-
  SqlDraft.Proofs.Session.Scope — which tables a statement may name. FROM introduces the base
  and then, clause by clause, the targets of the joins; the source of a join takes part in
  the session too, but FROM does not introduce it. So the condition of an inferred join,
  which names both, is in scope just if the source has been introduced (`wellScoped_iff`).
  If that is so for every join, then all tables that take part are introduced
  (`name_of_mem_tables`), and a SELECT list reads from no others.
-/

import SqlDraft.Proofs.Registry.Reachable
import SqlDraft.Proofs.Session.Qualified

namespace SqlDraft

/-- Each clause names only tables introduced before it and its own target. -/
def WellScoped : List String → List JoinClause → Prop
  | _, [] => True
  | introduced, j :: rest =>
    (∀ name ∈ j.condition.columns, ∃ t ∈ j.target :: introduced, name.table = some t) ∧
      WellScoped (j.target :: introduced) rest

/-- Each join has a source introduced before it, or its own target for a source. -/
def Sourced : List ModelType → List Joined → Prop
  | _, [] => True
  | introduced, j :: rest =>
    j.source.type ∈ j.target.type :: introduced ∧ Sourced (j.target.type :: introduced) rest

variable {r : Registry}

/-! ## Inferred joins -/

/-- The condition of a join that is inferred names both of its tables and no other. -/
structure Inferred (r : Registry) (j : Joined) : Prop where
  source_registered : r.model? j.source.type = some j.source
  target_registered : r.model? j.target.type = some j.target
  clause_target : j.clause.target = j.target.name
  names_source : ∃ name ∈ j.clause.condition.columns, name.table = some j.source.name
  names_no_other : ∀ name ∈ j.clause.condition.columns,
    name.table = some j.source.name ∨ name.table = some j.target.name

theorem tables_keyLink {source target : Model} {l : Relationship} {k : KeyLink}
    (hl : Relationship.infer source target = .ok l) (hk : l.keyLink = .ok k) :
    (k.key.table = some source.name ∧ k.link.table = some target.name) ∨
      (k.key.table = some target.name ∧ k.link.table = some source.name) := by
  obtain ⟨key, -, hmade⟩ := Relationship.keyLink_infer hl
  obtain rfl := Except.ok.inj (hmade.symm.trans hk)
  rcases (Relationship.ends_of_infer hl).1 with ⟨hp, hc⟩ | ⟨hp, hc⟩
  · exact .inl (by simp [Model.columnName, hp, hc])
  · exact .inr (by simp [Model.columnName, hp, hc])

theorem inferred_of_joined? {kind : JoinKind} {source target : ModelType} {j : Joined}
    (h : (Call.join kind source target none).joined? r = some j) : Inferred r j := by
  obtain ⟨kind', source', target', on, condition, hcall, -, -, hmake, hclause⟩ := joined?_eq_some h
  obtain ⟨hs, ht⟩ := models_of_joined? h
  cases hcall
  simp only [JoinCondition.make] at hmake
  obtain ⟨l, hl, hmake⟩ := Except.bind_eq_ok.mp hmake
  obtain ⟨k, hk, hmake⟩ := Except.bind_eq_ok.mp hmake
  cases hmake
  have htables := tables_keyLink hl hk
  constructor
  · exact hs
  · exact ht
  · rw [hclause]
  · rw [hclause]
    rcases htables with ⟨hkey, -⟩ | ⟨-, hlink⟩
    · exact ⟨k.key, by simp [JoinCondition.columns], hkey⟩
    · exact ⟨k.link, by simp [JoinCondition.columns], hlink⟩
  · rw [hclause]
    intro name hn
    simp only [JoinCondition.columns, List.mem_cons, List.not_mem_nil, or_false] at hn
    rcases hn with rfl | rfl
    · exact htables.imp And.left And.left
    · exact (htables.imp And.right And.right).symm

theorem inferred_of_mem {calls : List Call}
    (hinferred : ∀ kind source target on, Call.join kind source target on ∈ calls → on = none) :
    ∀ j ∈ Calls.joined r calls, Inferred r j := by
  intro j hj
  obtain ⟨call, hmem, hcall⟩ := List.mem_filterMap.mp hj
  obtain ⟨kind, source, target, on, -, rfl, -⟩ := joined?_eq_some hcall
  cases hinferred kind source target on hmem
  exact inferred_of_joined? hcall

/-! ## What is introduced -/

/-- Among registered models one is known by its type as well as by its name. -/
theorem name_mem_iff (hr : r.Reachable) {m : Model} (hm : r.model? m.type = some m) {ms : List Model}
    (hms : ∀ n ∈ ms, r.model? n.type = some n) : m.name ∈ ms.map (·.name) ↔ m.type ∈ ms.map (·.type) := by
  constructor
  · intro h
    obtain ⟨n, hn, hname⟩ := List.mem_map.mp h
    have : n = m := hr.eq_of_name_eq (Registry.mem_of_model? (hms n hn)) (Registry.mem_of_model? hm) hname
    rw [← this]
    exact List.mem_map_of_mem hn
  · intro h
    obtain ⟨n, hn, htype⟩ := List.mem_map.mp h
    have hsame := hms n hn
    rw [htype, hm] at hsame
    cases hsame
    exact List.mem_map_of_mem hn

/-- The conditions are in scope just if the sources are. -/
theorem wellScoped_iff (hr : r.Reachable) {joined : List Joined} (hj : ∀ j ∈ joined, Inferred r j) {ms : List Model}
    (hms : ∀ m ∈ ms, r.model? m.type = some m) :
    WellScoped (ms.map (·.name)) (joined.map (·.clause)) ↔ Sourced (ms.map (·.type)) joined := by
  induction joined generalizing ms with
  | nil => exact Iff.rfl
  | cons j joined ih =>
    have hi := hj j List.mem_cons_self
    have hms' : ∀ m ∈ j.target :: ms, r.model? m.type = some m := by
      intro m hm
      rcases List.mem_cons.mp hm with rfl | hm
      · exact hi.target_registered
      · exact hms m hm
    have hrest := ih (fun k hk => hj k (List.mem_cons_of_mem j hk)) hms'
    have hsource := name_mem_iff hr hi.source_registered hms'
    have hnames : (∀ name ∈ j.clause.condition.columns,
        ∃ t ∈ (j.target :: ms).map (·.name), name.table = some t) ↔
          j.source.name ∈ (j.target :: ms).map (·.name) := by
      constructor
      · intro h
        obtain ⟨name, hn, hname⟩ := hi.names_source
        obtain ⟨t, ht, htable⟩ := h name hn
        rw [hname] at htable
        cases htable
        exact ht
      · intro h name hn
        rcases hi.names_no_other name hn with htable | htable
        · exact ⟨_, h, htable⟩
        · exact ⟨_, by simp, htable⟩
    simp only [List.map_cons] at hrest hnames hsource ⊢
    rw [WellScoped, Sourced, hi.clause_target, hrest, hnames, hsource]

theorem source_mem_of_sourced {introduced : List ModelType} {joined : List Joined} (h : Sourced introduced joined) :
    ∀ j ∈ joined, j.source.type ∈ introduced ++ joined.map (·.target.type) := by
  induction joined generalizing introduced with
  | nil => simp
  | cons k joined ih =>
    obtain ⟨hk, hrest⟩ := h
    intro j hj
    rcases List.mem_cons.mp hj with rfl | hj
    · rcases List.mem_cons.mp hk with hk | hk
      · exact List.mem_append_right _ (by simp [hk])
      · exact List.mem_append_left _ hk
    · have := ih hrest j hj
      simp only [List.cons_append, List.mem_cons, List.mem_append, List.map_cons] at this ⊢
      rcases this with h | h | h
      · exact .inr (.inl h)
      · exact .inl h
      · exact .inr (.inr h)

/-! ## What is read from -/

theorem mem_of_mem_addTable {tables : List Model} {m t : Model} (h : t ∈ addTable tables m) :
    t ∈ tables ∨ t = m := by
  unfold addTable at h
  split at h
  · exact .inl h
  · simpa using h

/-- The tables that take part are the base and those of the joins. -/
theorem joined_of_mem_tables {base t : Model} {calls : List Call} (h : t ∈ Calls.tables r base calls) :
    t = base ∨ ∃ j ∈ Calls.joined r calls, t = j.source ∨ t = j.target := by
  unfold Calls.tables at h
  generalize Calls.joined r calls = joined at h
  suffices hs : ∀ tables, t ∈ joined.foldl Joined.extend tables →
      t ∈ tables ∨ ∃ j ∈ joined, t = j.source ∨ t = j.target by
    simpa using hs [base] h
  clear h
  induction joined with
  | nil => intro tables ht; exact .inl ht
  | cons j joined ih =>
    intro tables ht
    rcases ih _ ht with ht | ⟨k, hk, ht⟩
    · rcases mem_of_mem_addTable ht with ht | rfl
      · rcases mem_of_mem_addTable ht with ht | rfl
        · exact .inl ht
        · exact .inr ⟨j, List.mem_cons_self, .inl rfl⟩
      · exact .inr ⟨j, List.mem_cons_self, .inr rfl⟩
    · exact .inr ⟨k, List.mem_cons_of_mem j hk, ht⟩

/-- If every source is introduced, then so are all tables that take part. -/
theorem name_of_mem_tables {base t : Model} {calls : List Call} (hbase : r.model? base.type = some base)
    (hj : ∀ j ∈ Calls.joined r calls, Inferred r j) (hs : Sourced [base.type] (Calls.joined r calls))
    (ht : t ∈ Calls.tables r base calls) :
    t.name ∈ base.name :: ((Calls.joined r calls).map (·.clause)).map (·.target) := by
  have hmodels : ∀ m ∈ base :: (Calls.joined r calls).map (·.target), r.model? m.type = some m := by
    intro m hm
    rcases List.mem_cons.mp hm with rfl | hm
    · exact hbase
    · obtain ⟨j, hmem, rfl⟩ := List.mem_map.mp hm
      exact (hj j hmem).target_registered
  have hnames : ((Calls.joined r calls).map (·.clause)).map (·.target) =
      ((Calls.joined r calls).map (·.target)).map (·.name) := by
    rw [List.map_map, List.map_map]
    exact List.map_congr_left fun j hmem => (hj j hmem).clause_target
  rw [hnames, ← List.map_cons]
  rcases joined_of_mem_tables ht with rfl | ⟨j, hmem, rfl | rfl⟩
  · exact List.mem_cons_self
  · -- The source is introduced by type, and a registered type has one model.
    have htypes : [base.type] ++ (Calls.joined r calls).map (·.target.type) =
        (base :: (Calls.joined r calls).map (·.target)).map (·.type) := by
      simp
    have htype := source_mem_of_sourced hs j hmem
    rw [htypes] at htype
    obtain ⟨m, hm, he⟩ := List.mem_map.mp htype
    have hsame := hmodels m hm
    rw [he, (hj j hmem).source_registered] at hsame
    cases hsame
    exact List.mem_map_of_mem hm
  · exact List.mem_map_of_mem (List.mem_cons_of_mem _ (List.mem_map_of_mem hmem))

/-! ## Every run -/

/-- If no join is given a condition, then all conditions in FROM are in scope just if all
    sources are. In that case every entry of a SELECT list, also after another projection,
    reads a table that FROM introduces. -/
theorem scope_run {type : ModelType} {c : Config} {s : Session} {calls : List Call} (hr : r.Reachable)
    (h : Session.start r type c = .ok s)
    (hinferred : ∀ kind source target on, Call.join kind source target on ∈ calls → on = none) :
    (WellScoped [s.base.name] (s.run calls).joins ↔ Sourced [s.base.type] (Calls.joined r calls)) ∧
      (Sourced [s.base.type] (Calls.joined r calls) → ∀ shape,
        ∀ item ∈ ((s.run calls).perform (.selectInto shape)).session.items,
          ∃ (m : Model) (f : Field) (qualified : Bool), item = m.selectItem qualified f ∧ (f ∈ m.fields ∨ m = s.base) ∧
            m.name ∈ s.base.name :: (s.run calls).joins.map (·.target)) := by
  have hrun := account_run h calls
  obtain ⟨-, base, hbase, hs⟩ := Session.start_eq_ok.mp h
  have hbase : r.model? s.base.type = some s.base := by
    rw [hs]
    show r.model? base.type = some base
    rwa [Registry.type_of_model? hbase]
  have hj := inferred_of_mem (r := r) hinferred
  rw [hrun.joins_eq]
  constructor
  · have hbases : ∀ m ∈ [s.base], r.model? m.type = some m := by simpa using hbase
    exact wellScoped_iff hr hj hbases
  · intro hsourced shape item hitem
    rw [← Session.run_concat, items_eq (account_run h _)] at hitem
    obtain ⟨m, hm, f, qualified, rfl, hf, -⟩ := source_items hitem
    have hsame : Calls.joined r (calls ++ [.selectInto shape]) = Calls.joined r calls := by
      unfold Calls.joined
      rw [filterMap_concat]
      exact List.append_nil _
    rw [Calls.tables, hsame] at hm
    exact ⟨m, f, qualified, rfl, hf, name_of_mem_tables hbase hj hsourced hm⟩

/-- Where the book is the source of its join and the base the target, FROM does not introduce the
    book. -/
theorem scope_run_library :
    (WellScoped ["author"] (Library.session.run [.join .left ⟨"Author"⟩ ⟨"Book"⟩ none]).joins ∧
      ∀ item ∈ ((Library.session.run [.join .left ⟨"Author"⟩ ⟨"Book"⟩ none]).perform
          (.selectInto ⟨"Book"⟩)).session.items,
        ∃ (m : Model) (f : Field) (qualified : Bool), item = m.selectItem qualified f ∧
          (f ∈ m.fields ∨ m = Library.author) ∧ m.name ∈ ["author", "book"]) ∧
      ¬ WellScoped ["author"] (Library.session.run [.join .left ⟨"Book"⟩ ⟨"Author"⟩ none]).joins := by
  have hauthor : Registry.Reachable ⟨[Library.author]⟩ := .register (m := Library.author) .empty rfl
  have hr : Library.registry.Reachable := .register (m := Library.book) hauthor rfl
  have hinferred (a b : ModelType) : ∀ kind source target on,
      Call.join kind source target on ∈ [Call.join .left a b none] → on = none := by
    simp
  have hjoined := scope_run hr Library.start_registry (hinferred ⟨"Author"⟩ ⟨"Book"⟩)
  have hreversed := scope_run hr Library.start_registry (hinferred ⟨"Book"⟩ ⟨"Author"⟩)
  have hsourced : Sourced [⟨"Author"⟩] (Calls.joined Library.registry [.join .left ⟨"Author"⟩ ⟨"Book"⟩ none]) :=
    ⟨by decide, trivial⟩
  refine ⟨⟨hjoined.1.mpr hsourced, hjoined.2 hsourced ⟨"Book"⟩⟩, fun hscoped => ?_⟩
  exact absurd (hreversed.1.mp hscoped).1 (by decide)

end SqlDraft
