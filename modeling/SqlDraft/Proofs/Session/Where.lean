/-
  SqlDraft.Proofs.Session.Where — what the WHERE clause of a session means. Filters add their
  fragments to the end of the text and group nothing, so the fragments are a row: each is one
  operand, and its operator ties it to all that came before only if precedence has it so
  (`reads_whereText`).
-/

import SqlDraft.Proofs.Boolean.Row
import SqlDraft.Proofs.Session.Injection

namespace SqlDraft

open Sql Boolean

/-- The fragments of a WHERE clause by their places, each with its operator. -/
def places (fs : List Filter) : Row (Fin fs.length) := List.ofFn fun i => (fs[i].op, i)

theorem map_places (fs : List Filter) :
    (places fs).map (fun t => (t.1, fs[t.2])) = fs.map fun f => (f.op, f) := by
  refine List.ext_getElem (by simp [places]) fun k h _ => ?_
  simp [places]

theorem nodup_places (fs : List Filter) : ((places fs).map (·.2)).Nodup := by
  have hall : (places fs).map (·.2) = List.finRange fs.length := by
    rw [places, List.map_ofFn]
    rfl
  rw [hall]
  exact List.nodup_finRange _

theorem filterTokens_eq (fs : List Filter) :
    filterTokens fs = Row.tokens (fun i => fs[i].fragment.tokens) (places fs) := by
  rw [← Row.tokens_map (fun f : Filter => f.fragment.tokens) (fun i => fs[i]), map_places]
  cases fs with
  | nil => rfl
  | cons f fs => simp [filterTokens, Row.tokens, Row.tied, List.flatMap_map]

variable {r : Registry}

theorem isWellFormed_filter {c : Call} {qualified : Bool} {f : Filter} (h : c.filter? r qualified = some f) :
    f.fragment.isWellFormed = true := by
  cases c with
  | filter op p => exact isWellFormed_resolve (filter?_eq_some h).2
  | _ => cases h

/-- A fragment without raw text is one operand, whatever the text around it. -/
theorem reads_filter {c : Call} (hc : c.isRawFree = true) {qualified : Bool} {f : Filter}
    (h : c.filter? r qualified = some f) : Reads .factor f.fragment.tokens f.fragment.formula :=
  reads_fragment f.fragment (isRawFree_filter hc h) (isWellFormed_filter h)

theorem mem_filters {start : Bool} {calls : List Call} {f : Filter} :
    f ∈ Calls.filters r start calls ↔
      ∃ past call, (past, call) ∈ withPast [] calls ∧ call.filter? r (Calls.qualified r start past) = some f := by
  simp [Calls.filters, List.mem_filterMap]

/-- The reading of a WHERE clause: some run of fragments tied by AND is true throughout. -/
def whereFormula (fs : List Filter) : Formula :=
  .any ((Row.runs (places fs)).map fun run => .all (run.map fun i => fs[i].fragment.formula))

theorem reads_filterTokens {fs : List Filter} (hne : fs ≠ [])
    (h : ∀ f ∈ fs, Reads .factor f.fragment.tokens f.fragment.formula) :
    Reads .disjunction (filterTokens fs) (whereFormula fs) := by
  rw [filterTokens_eq]
  refine reads_row (fun i : Fin fs.length => h fs[i] (List.getElem_mem _)) ?_
  simpa [places] using hne

/-- If the filters that were added hold no raw text, whatever else was called, then the WHERE
    text is that of their fragments, each of them one operand, and has one reading. It has the
    value of the fragments taken in the order of the calls, whichever of them are true, just if
    no AND was added after an OR. -/
theorem reads_whereText {type : ModelType} {c : Config} {s : Session} {m : Text.Marks} {calls : List Call}
    {fs : List Filter} (hm : c.dialect.marks? = some m) (h : Session.start r type c = .ok s)
    (hraw : ∀ past call f, (past, call) ∈ withPast [] calls →
      call.filter? r (Calls.qualified r c.qualified past) = some f → call.isRawFree = true)
    (hfs : Calls.filters r c.qualified calls = fs) (hne : fs ≠ []) :
    Sql.lex m (s.run calls).whereText = some (filterTokens fs) ∧
      (∀ f ∈ fs, Reads .factor f.fragment.tokens f.fragment.formula) ∧
      (∀ φ, Reads .disjunction (filterTokens fs) φ ↔ φ = whereFormula fs) ∧
      (∀ w : List Token → Bool,
        (whereFormula fs).value w = Row.byPrecedence (fun i => fs[i].fragment.formula.value w) (places fs)) ∧
      ((∀ v : Fin fs.length → Bool, Row.byPrecedence v (places fs) = Row.inCallOrder v (places fs)) ↔
        Row.AndsFirst (places fs)) := by
  have hcalls : ∀ f ∈ fs, ∃ call : Call, call.isRawFree = true ∧ ∃ qualified, call.filter? r qualified = some f := by
    intro f hf
    rw [← hfs] at hf
    obtain ⟨past, call, hmem, hcall⟩ := mem_filters.mp hf
    exact ⟨call, hraw past call f hmem hcall, _, hcall⟩
  have hoperand : ∀ f ∈ fs, Reads .factor f.fragment.tokens f.fragment.formula := by
    intro f hf
    obtain ⟨call, hfree, qualified, hcall⟩ := hcalls f hf
    exact reads_filter hfree hcall
  have hreads := reads_filterTokens hne hoperand
  refine ⟨?_, hoperand, ?_, fun w => value_runs w _, agrees_iff (nodup_places fs)⟩
  · have hrun := account_run h calls
    obtain ⟨-, hd, -, -⟩ := Session.run_frame s calls
    obtain ⟨-, _, -, hs⟩ := Session.start_eq_ok.mp h
    have hd : (s.run calls).dialect = c.dialect := by rw [hd, hs]
    rw [Session.whereText, hd, hrun.filters_eq, hfs]
    refine spells_whereText hm fun f hf => ?_
    obtain ⟨call, hfree, qualified, hcall⟩ := hcalls f hf
    exact isRawFree_filter hfree hcall
  · intro φ
    constructor
    · intro hφ
      exact hφ.unique hreads
    · rintro rfl
      exact hreads

/-- A filter with AND after one with OR, and a join in between. -/
def Library.accumulated : List Call :=
  [.filter .and (.single ⟨"Author"⟩ (.isNull ⟨⟨"Author"⟩, "name"⟩)),
    .filter .or (.single ⟨"Author"⟩ (.eq ⟨⟨"Author"⟩, "name"⟩ (.value (.text "A OR B")))),
    .join .left ⟨"Author"⟩ ⟨"Book"⟩ none,
    .filter .and (.single ⟨"Book"⟩ (.isNotNull ⟨⟨"Book"⟩, "title"⟩))]

theorem reads_whereText_library :
    Sql.lex ⟨'"', '"'⟩ (Library.session.run Library.accumulated).whereText =
        some [.symbol "(", .name "name", .word "IS", .word "NULL", .symbol ")", .word "OR", .symbol "(", .name "name",
          .symbol "=", .text "A OR B", .symbol ")", .word "AND", .symbol "(", .name "book", .symbol ".", .name "title",
          .word "IS", .word "NOT", .word "NULL", .symbol ")"] ∧
      ¬ ∀ v : Fin 3 → Bool, Row.byPrecedence v [(.and, 0), (.or, 1), (.and, 2)] =
        Row.inCallOrder v [(.and, 0), (.or, 1), (.and, 2)] := by
  have hraw : ∀ call ∈ Library.accumulated, call.isRawFree = true := by decide
  obtain ⟨hlex, -, -, -, hagrees⟩ := reads_whereText (m := ⟨'"', '"'⟩) rfl Library.start_registry
    (fun past call f hmem _ => hraw call (mem_of_mem_withPast hmem)) rfl (by decide)
  refine ⟨hlex, fun h => ?_⟩
  exact absurd (hagrees.mp h) (by decide)

end SqlDraft
