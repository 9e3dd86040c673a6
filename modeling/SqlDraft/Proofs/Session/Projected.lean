/-
  SqlDraft.Proofs.Session.Projected — what projections leave to later ones. No other call
  looks at the SELECT list, so runs that differ in projections alone come to the same
  statement but for that list (`draft_eq_of_unprojected`). A projection sets the list anew,
  and then it does not matter which ones came before it. Only the projection onto the base
  takes the list as it finds it, as long as columns are not qualified, and what it finds may
  be the list of another shape (`projected_run`).
-/

import Mathlib.Data.List.Induction
import SqlDraft.Proofs.Session.Injection

namespace SqlDraft

def Call.isProjection : Call → Bool
  | .selectInto _ => true
  | _ => false

/-- The statement with another SELECT list. -/
def Statement.selecting (items : List SelectItem) (q : Statement) : Statement := { q with items }

theorem render_selecting_iff (d : Dialect) (separator : String) (q : Statement) (items other : List SelectItem) :
    (q.selecting items).render d separator = (q.selecting other).render d separator ↔
      selectText d items = selectText d other := by
  simp only [Statement.render, Statement.whereClause, Statement.orderClause, Statement.selecting, String.append_assoc]
  exact String.append_left_inj _

namespace Calls

/-- The calls but for the projections. -/
def unprojected (calls : List Call) : List Call := calls.filter fun c => !c.isProjection

variable {r : Registry} {base : Model} {start : Bool} {calls calls' : List Call}

@[simp] theorem unprojected_unprojected : unprojected (unprojected calls) = unprojected calls := by
  simp [unprojected]

@[simp] theorem unprojected_selectInto (shape : ModelType) :
    unprojected (calls ++ [.selectInto shape]) = unprojected calls := by
  simp [unprojected, Call.isProjection]

theorem unprojected_concat {c : Call} (hc : c.isProjection = false) :
    unprojected (calls ++ [c]) = unprojected calls ++ [c] := by
  simp [unprojected, hc]

/-! ## Other parts -/

theorem filterMap_unprojected {β : Type} {f : Call → Option β} (hf : ∀ shape, f (.selectInto shape) = none) :
    (unprojected calls).filterMap f = calls.filterMap f := by
  have hsame : (fun c : Call => if !c.isProjection then f c else none) = f := by
    funext c
    cases c with
    | selectInto shape => exact (hf shape).symm
    | _ => rfl
  rw [unprojected, List.filterMap_filter, hsame]

theorem joined_unprojected : joined r (unprojected calls) = joined r calls := filterMap_unprojected fun _ => rfl

theorem qualified_unprojected : qualified r start (unprojected calls) = qualified r start calls := by
  rw [qualified, joined_unprojected, qualified]

theorem tables_unprojected : tables r base (unprojected calls) = tables r base calls := by
  rw [tables, joined_unprojected, tables]

theorem filters_concat (c : Call) :
    filters r start (calls ++ [c]) = filters r start calls ++ (c.filter? r (qualified r start calls)).toList := by
  unfold filters
  rw [withPast_concat, filterMap_concat]
  rfl

theorem filters_unprojected : filters r start (unprojected calls) = filters r start calls := by
  induction calls using List.reverseRecOn with
  | nil => rfl
  | append_singleton calls c ih =>
    cases c with
    | selectInto shape =>
      rw [unprojected_selectInto, ih, filters_concat]
      exact (List.append_nil _).symm
    | _ => rw [unprojected_concat rfl, filters_concat, ih, qualified_unprojected, filters_concat]

/-- What is no projection settles all of a statement but its SELECT list. -/
theorem draft_eq_of_unprojected (h : unprojected calls' = unprojected calls) :
    draft r base start calls' = (draft r base start calls).map (·.selecting (items r base start calls')) := by
  have hparts {β : Type} {f : Call → Option β} (hf : ∀ shape, f (.selectInto shape) = none) :
      calls'.filterMap f = calls.filterMap f := by
    rw [← filterMap_unprojected hf, h, filterMap_unprojected hf]
  have hjoined : joined r calls' = joined r calls := hparts fun _ => rfl
  have hqualified : qualified r start calls' = qualified r start calls := by
    rw [qualified, hjoined, qualified]
  have hfilters : filters r start calls' = filters r start calls := by
    rw [← filters_unprojected, h, filters_unprojected]
  have hordering : ordering calls' = ordering calls := hparts fun _ => rfl
  have hlimit : limit calls' = limit calls := by rw [limit, hparts fun _ => rfl, limit]
  have hoffset : offset calls' = offset calls := by rw [offset, hparts fun _ => rfl, offset]
  unfold draft
  rw [hjoined, hqualified, hfilters, hordering, hlimit, hoffset]
  cases (ordering calls).mapM (OrderTerm.resolve r (qualified r start calls)) <;> rfl

/-! ## The SELECT list -/

theorem projections_concat (c : Call) :
    projections r base start (calls ++ [c]) = projections r base start calls ++
      ((c.shape? r base (qualified r start calls)).map (projectionItems base (tables r base calls))).toList := by
  unfold projections
  rw [withPast_concat, filterMap_concat]
  rfl

theorem projections_unprojected : projections r base start (unprojected calls) = [] := by
  refine List.filterMap_eq_nil_iff.mpr fun ⟨past, c⟩ hc => ?_
  have hmem := (List.mem_filter.mp (mem_of_mem_withPast hc)).2
  cases c with
  | selectInto => cases hmem
  | _ => rfl

theorem items_unprojected :
    items r base start (unprojected calls) = base.fields.map (base.selectItem (qualified r start calls)) := by
  rw [items, projections_unprojected, qualified_unprojected]
  rfl

/-- A projection onto a shape sets the list, and any other leaves it as it was. -/
theorem items_selectInto (shape : ModelType) :
    items r base start (calls ++ [.selectInto shape]) =
      (((Call.selectInto shape).shape? r base (qualified r start calls)).map
        (projectionItems base (tables r base calls))).getD (items r base start calls) := by
  have hqualified : qualified r start (calls ++ [.selectInto shape]) = qualified r start calls := by
    rw [← qualified_unprojected, unprojected_selectInto, qualified_unprojected]
  unfold items
  rw [hqualified, projections_concat, getLast?_append_toList]
  cases (Call.selectInto shape).shape? r base (qualified r start calls) <;> rfl

end Calls

/-! ## Every run -/

variable {r : Registry} {type : ModelType} {c : Config} {s : Session} {calls : List Call} {shape : ModelType}

/-- Runs that differ in projections alone give the same answer to one more, but for the SELECT
    list. -/
theorem result_selectInto_of_unprojected (h : Session.start r type c = .ok s) {calls' : List Call}
    (hsame : Calls.unprojected calls' = Calls.unprojected calls) (shape : ModelType) :
    ((s.run calls').perform (.selectInto shape)).result =
      if (shape = s.base.type ∧ Calls.qualified r c.qualified calls = false) ∨ (r.model? shape).isSome then
        (Calls.draft r s.base c.qualified calls).map fun q => .statement
          ((q.selecting (Calls.items r s.base c.qualified (calls' ++ [.selectInto shape]))).render c.dialect c.separator)
      else .error (.notRegistered shape) := by
  have hrun := account_run h calls'
  have hqualified : Calls.qualified r c.qualified calls' = Calls.qualified r c.qualified calls := by
    rw [← Calls.qualified_unprojected, hsame, Calls.qualified_unprojected]
  have hdraft : Calls.draft r s.base c.qualified (calls' ++ [.selectInto shape]) =
      (Calls.draft r s.base c.qualified calls).map
        (·.selecting (Calls.items r s.base c.qualified (calls' ++ [.selectInto shape]))) :=
    Calls.draft_eq_of_unprojected (by rw [Calls.unprojected_selectInto, hsame])
  rw [Session.result_selectInto, ← Session.session_perform, ← Session.run_concat, statement_run h, hrun.registry_eq,
    hrun.base_eq, hrun.qualified_eq, hqualified, hdraft]
  cases Calls.draft r s.base c.qualified calls <;> rfl

/-- Without the projections before it a projection answers the same, unless it is the one onto
    the base in a session without qualified columns: that one answers the same just if the
    list it finds is spelled like that of all fields of the base. Any other sets the list to
    that of its shape. -/
theorem projected_run {reply : Reply} (h : Session.start r type c = .ok s)
    (hok : ((s.run calls).perform (.selectInto shape)).result = .ok reply) :
    (((s.run (Calls.unprojected calls)).perform (.selectInto shape)).result = .ok reply ↔
      (shape = s.base.type ∧ Calls.qualified r c.qualified calls = false →
        (s.run calls).selectText = selectText c.dialect (s.base.fields.map (s.base.selectItem false)))) ∧
      (¬ (shape = s.base.type ∧ Calls.qualified r c.qualified calls = false) →
        ∃ m, r.model? shape = some m ∧ ((s.run calls).perform (.selectInto shape)).session.items =
          projectionItems s.base (Calls.tables r s.base calls) m) := by
  rw [result_selectInto_of_unprojected h rfl] at hok
  split at hok
  case isFalse => cases hok
  rename_i hregistered
  obtain ⟨q, hq, hreply⟩ := Except.map_eq_ok.mp hok
  -- Only the SELECT list tells the two answers apart.
  have hanswer : ((s.run (Calls.unprojected calls)).perform (.selectInto shape)).result = .ok reply ↔
      selectText c.dialect (Calls.items r s.base c.qualified (Calls.unprojected calls ++ [.selectInto shape])) =
        selectText c.dialect (Calls.items r s.base c.qualified (calls ++ [.selectInto shape])) := by
    rw [result_selectInto_of_unprojected h Calls.unprojected_unprojected, if_pos hregistered, hq, ← hreply,
      ← render_selecting_iff c.dialect c.separator q]
    simp [Except.map]
  have hunprojected : Calls.items r s.base c.qualified (Calls.unprojected calls ++ [.selectInto shape]) =
      (((Call.selectInto shape).shape? r s.base (Calls.qualified r c.qualified calls)).map
        (projectionItems s.base (Calls.tables r s.base calls))).getD
          (s.base.fields.map (s.base.selectItem (Calls.qualified r c.qualified calls))) := by
    rw [Calls.items_selectInto, Calls.qualified_unprojected, Calls.tables_unprojected, Calls.items_unprojected]
  rw [hanswer, hunprojected, ← Session.run_concat, items_eq (account_run h _), Calls.items_selectInto]
  by_cases hbase : shape = s.base.type ∧ Calls.qualified r c.qualified calls = false
  · -- The list is taken as it is found.
    have hnone : (Call.selectInto shape).shape? r s.base (Calls.qualified r c.qualified calls) = none := if_pos hbase
    have htext : (s.run calls).selectText = selectText c.dialect (Calls.items r s.base c.qualified calls) :=
      (drafted_run h calls).select_eq
    rw [hnone, htext]
    refine ⟨⟨fun he _ => ?_, fun he => ?_⟩, fun hno => absurd hbase hno⟩
    · rw [hbase.2] at he
      exact he.symm
    · rw [hbase.2]
      exact (he hbase).symm
  · obtain ⟨m, hm⟩ := Option.isSome_iff_exists.mp (hregistered.resolve_left hbase)
    have hshape : (Call.selectInto shape).shape? r s.base (Calls.qualified r c.qualified calls) = some m := by
      rw [← hm]
      exact if_neg hbase
    rw [hshape]
    exact ⟨⟨fun _ hfound => absurd hfound hbase, fun _ => rfl⟩, fun _ => ⟨m, hm, rfl⟩⟩

/-- A projection onto the book, and after it a join. -/
def Library.projectedFirst : List Call := [.selectInto ⟨"Book"⟩, .join .left ⟨"Author"⟩ ⟨"Book"⟩ none]

theorem projected_run_library :
    ∃ reply, ((Library.session.run Library.projectedFirst).perform (.selectInto ⟨"Author"⟩)).result = .ok reply ∧
      ((Library.session.run [.join .left ⟨"Author"⟩ ⟨"Book"⟩ none]).perform (.selectInto ⟨"Author"⟩)).result =
        .ok reply := by
  obtain ⟨reply, hok⟩ : ∃ reply, ((Library.session.run Library.projectedFirst).perform
    (.selectInto ⟨"Author"⟩)).result = .ok reply := ⟨_, rfl⟩
  have h := projected_run Library.start_registry hok
  exact ⟨reply, hok, h.1.mpr fun hbase => absurd hbase.2 (by decide)⟩

/-- Without a join, authors are read as if they were books. -/
theorem leftover_projection :
    ((Library.session.run [.selectInto ⟨"Book"⟩]).perform (.selectInto ⟨"Author"⟩)).result =
        .ok (.statement "SELECT \"author\".\"id\", \"author\".\"title\", \"author\".\"authorId\" \nFROM \"author\"") ∧
      ((Library.session.run (Calls.unprojected [.selectInto ⟨"Book"⟩])).perform (.selectInto ⟨"Author"⟩)).result =
        .ok (.statement "SELECT \"id\", \"name\" \nFROM \"author\"") :=
  ⟨rfl, rfl⟩

end SqlDraft
