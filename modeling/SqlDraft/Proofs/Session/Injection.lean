/-
  SqlDraft.Proofs.Session.Injection — no name and no value gets out of its place. A run of
  calls without raw text drafts a statement without raw text (`isRawFree_draft`), and a
  dialect that quotes names spells it in a text that reads back as exactly what the calls
  came to, with every separator (`lex_statement`).
-/

import SqlDraft.Proofs.Session.Account

namespace SqlDraft

/-- No condition of the call has raw text. -/
def Call.isRawFree : Call → Bool
  | .join _ _ _ on => on.all Condition.isRawFree
  | .filter _ p => p.condition.isRawFree
  | _ => true

variable {r : Registry} {base : Model} {start : Bool} {calls : List Call}

theorem mem_of_mem_withPast {past before : List Call} {c : Call} (h : (before, c) ∈ withPast past calls) : c ∈ calls := by
  induction calls generalizing past with
  | nil => cases h
  | cons d calls ih =>
    rcases List.mem_cons.mp h with h | h
    · cases h
      exact List.mem_cons_self
    · exact List.mem_cons_of_mem d (ih h)

theorem isRawFree_joined {c : Call} (hc : c.isRawFree = true) {j : Joined} (h : c.joined? r = some j) :
    j.clause.condition.isRawFree = true := by
  obtain ⟨kind, source, target, on, condition, rfl, -, -, hmake, hclause⟩ := joined?_eq_some h
  rw [hclause]
  refine isRawFree_make (fun given hgiven => ?_) hmake
  rw [Option.mem_def.mp hgiven] at hc
  exact hc

theorem isRawFree_filter {c : Call} (hc : c.isRawFree = true) {qualified : Bool} {f : Filter}
    (h : c.filter? r qualified = some f) : f.fragment.isRawFree = true := by
  cases c with
  | filter op p =>
    rw [isRawFree_resolve (filter?_eq_some h).2]
    exact hc
  | _ => cases h

theorem isRawFree_parts (hraw : ∀ c ∈ calls, c.isRawFree = true) :
    (∀ clause ∈ (Calls.joined r calls).map (·.clause), clause.condition.isRawFree = true) ∧
      ∀ f ∈ Calls.filters r start calls, f.fragment.isRawFree = true := by
  constructor
  · intro clause hclause
    obtain ⟨j, hj, rfl⟩ := List.mem_map.mp hclause
    obtain ⟨c, hc, hcj⟩ := List.mem_filterMap.mp hj
    exact isRawFree_joined (hraw c hc) hcj
  · intro f hf
    obtain ⟨⟨past, c⟩, hc, hcf⟩ := List.mem_filterMap.mp hf
    exact isRawFree_filter (hraw c (mem_of_mem_withPast hc)) hcf

theorem isRawFree_draft (hraw : ∀ c ∈ calls, c.isRawFree = true) {q : Statement}
    (h : Calls.draft r base start calls = .ok q) : q.IsRawFree := by
  obtain ⟨keys, -, rfl⟩ := Except.map_eq_ok.mp h
  exact isRawFree_parts hraw

/-- What a session's statement is the text of. -/
theorem statement_run {type : ModelType} {c : Config} {s : Session} (h : Session.start r type c = .ok s)
    (calls : List Call) :
    (s.run calls).statement = (Calls.draft r s.base c.qualified calls).map (·.render c.dialect c.separator) := by
  obtain ⟨-, hd, hsep, -⟩ := Session.run_frame s calls
  obtain ⟨-, m, -, hs⟩ := Session.start_eq_ok.mp h
  unfold Session.statement
  rw [draft_eq (account_run h calls), hd, hsep, hs]

/-- Whatever the separator, a session starts over the same base. -/
theorem start_of_separator {type : ModelType} {c : Config} {s : Session} (h : Session.start r type c = .ok s)
    {separator : String} (hsep : Config.isSeparator separator = true) :
    ∃ t, Session.start r type { c with separator } = .ok t ∧ t.base = s.base := by
  obtain ⟨-, m, hm, rfl⟩ := Session.start_eq_ok.mp h
  exact ⟨_, Session.start_eq_ok.mpr ⟨hsep, m, hm, rfl⟩, rfl⟩

/-- The text of a statement that a run without raw text has come to reads as the tokens of
    what the calls drafted, and so does the text with any other separator. -/
theorem lex_statement {type : ModelType} {c : Config} {s : Session} {m : Text.Marks} {sql : String}
    (hm : c.dialect.marks? = some m) (h : Session.start r type c = .ok s)
    (hraw : ∀ call ∈ calls, call.isRawFree = true) (hsql : (s.run calls).statement = .ok sql) :
    ∃ q, Calls.draft r s.base c.qualified calls = .ok q ∧ Sql.lex m sql = some (q.tokens c.dialect) ∧
      ∀ separator, Config.isSeparator separator = true →
        ∃ t text, Session.start r type { c with separator } = .ok t ∧ (t.run calls).statement = .ok text ∧
          Sql.lex m text = some (q.tokens c.dialect) := by
  rw [statement_run h] at hsql
  obtain ⟨q, hq, rfl⟩ := Except.map_eq_ok.mp hsql
  have hqraw := isRawFree_draft hraw hq
  have hvalid := (Session.start_eq_ok.mp h).1
  refine ⟨q, hq, spells_statement hm hvalid hqraw, ?_⟩
  intro separator hsep
  obtain ⟨t, ht, hbase⟩ := start_of_separator h hsep
  refine ⟨t, q.render c.dialect separator, ht, ?_, spells_statement hm hsep hqraw⟩
  rw [statement_run ht, hbase]
  exact Except.map_eq_ok.mpr ⟨q, hq, rfl⟩

/-- The name that is asked for holds an apostrophe, an operator and the start of a comment. -/
theorem lex_statement_library :
    ∃ q, Calls.draft Library.registry Library.author false
        [.filter .and (.single ⟨"Author"⟩ (.eq ⟨⟨"Author"⟩, "name"⟩ (.value (.text "O'Neil OR TRUE --"))))] = .ok q ∧
      Sql.lex ⟨'"', '"'⟩
        "SELECT \"id\", \"name\" \nFROM \"author\" \nWHERE (\"name\" = 'O''Neil OR TRUE --')" =
          some (q.tokens .sqlite) := by
  have hsql : (Library.session.run
      [.filter .and (.single ⟨"Author"⟩ (.eq ⟨⟨"Author"⟩, "name"⟩ (.value (.text "O'Neil OR TRUE --"))))]).statement =
        .ok "SELECT \"id\", \"name\" \nFROM \"author\" \nWHERE (\"name\" = 'O''Neil OR TRUE --')" := rfl
  obtain ⟨q, hq, hlex, -⟩ := lex_statement rfl Library.start_registry (by decide) hsql
  exact ⟨q, hq, hlex⟩

end SqlDraft
