/-
  SqlDraft.Proofs.Lexical.Statement — what a statement says, token by token, and that its
  text says it (`spells_statement`), whatever stands between its sections.

  The clauses follow one another without a look at what came before, for each of them
  starts with a blank (`Delimited`).
-/

import SqlDraft.Config
import SqlDraft.Proofs.Lexical.Condition
import SqlDraft.Sql.Statement

namespace SqlDraft

open Sql

/-! ## Tokens -/

def JoinKind.tokens : JoinKind → List Token
  | .inner => [.word "INNER", .word "JOIN"]
  | .left => [.word "LEFT", .word "JOIN"]
  | .right => [.word "RIGHT", .word "JOIN"]
  | .full => [.word "FULL", .word "JOIN"]

namespace JoinCondition

def tokens : JoinCondition → List Token
  | .keys k => parenthesized (k.key.tokens ++ .symbol "=" :: k.link.tokens)
  | .explicit f => f.tokens

def isRawFree : JoinCondition → Bool
  | .keys _ => true
  | .explicit f => f.isRawFree

end JoinCondition

def JoinClause.tokens (j : JoinClause) : List Token :=
  j.kind.tokens ++ .name j.target :: .word "ON" :: j.condition.tokens

def SortKey.tokens (k : SortKey) : List Token :=
  k.column.tokens ++ [.word (match k.direction with | .asc => "ASC" | .desc => "DESC")]

/-- The fragments with their operators between; that of the first is left out. -/
def filterTokens : List Filter → List Token
  | [] => []
  | f :: fs => f.fragment.tokens ++ fs.flatMap fun g => g.op.token :: g.fragment.tokens

def decimalToken (n : Nat) : Token := .number (String.ofList (Nat.toDigits 10 n))

/-- SQL Server pages an ordered statement only, and from an offset on. -/
def Dialect.pagingTokens (d : Dialect) (limit offset : Option Nat) (ordered : Bool) : List Token :=
  match d with
  | .sqlserver =>
    if limit.isNone && offset.isNone then []
    else
      (if ordered then [] else .word "ORDER" :: .word "BY" :: parenthesized [.word "SELECT", .word "NULL"]) ++
        [.word "OFFSET", decimalToken (offset.getD 0), .word "ROWS"] ++
        match limit with
        | some n => [.word "FETCH", .word "NEXT", decimalToken n, .word "ROWS", .word "ONLY"]
        | none => []
  | _ =>
    (match limit with
      | some n => [.word "LIMIT", decimalToken n]
      | none => []) ++
      match offset with
      | some n => [.word "OFFSET", decimalToken n]
      | none => []

namespace Statement

def tokens (d : Dialect) (s : Statement) : List Token :=
  .word "SELECT" :: commaSeparated (s.items.map (·.tokens d)) ++
    .word "FROM" :: .name s.base :: s.joins.flatMap JoinClause.tokens ++
    (if s.filters.isEmpty then [] else .word "WHERE" :: filterTokens s.filters) ++
    (if s.ordering.isEmpty then [] else .word "ORDER" :: .word "BY" :: commaSeparated (s.ordering.map SortKey.tokens)) ++
    d.pagingTokens s.limit s.offset (!s.ordering.isEmpty)

/-- No raw text in its conditions. -/
def IsRawFree (s : Statement) : Prop :=
  (∀ j ∈ s.joins, j.condition.isRawFree = true) ∧ ∀ f ∈ s.filters, f.fragment.isRawFree = true

end Statement

variable {d : Dialect} {m : Text.Marks}

/-! ## Clauses -/

theorem spells_joinCondition (hm : d.marks? = some m) {c : JoinCondition} (h : c.isRawFree = true) :
    Spells m (c.render d) c.tokens := by
  cases c with
  | keys k =>
    have ho : Leads m "\n(" [.symbol "("] := rfl
    have heq : Breaks m " = " [.symbol "="] := ⟨rfl, by decide, by decide⟩
    have hend : Breaks m ")" [.symbol ")"] := ⟨rfl, by decide, by decide⟩
    have hc := (nameMarks_of_marks? hm).delimits_closing
    have hkey := (ho.spells (spells_column hm k.key)).leads hc heq
    have := (hkey.spells (spells_column hm k.link)).leads hc hend
    simpa [JoinCondition.render, KeyLink.render, JoinCondition.tokens, parenthesized] using this.toSpells
  | explicit f => exact spells_fragment hm f h

theorem breaks_join (kind : JoinKind) : Breaks m (" " ++ kind.keywords ++ " ") kind.tokens := by
  cases kind <;> exact ⟨rfl, by decide, by decide⟩

theorem spells_clause (hm : d.marks? = some m) {j : JoinClause} (h : j.condition.isRawFree = true) :
    Spells m (j.render d) j.tokens := by
  have hon : Breaks m "  ON " [.word "ON"] := ⟨rfl, by decide, by decide⟩
  have ht := (breaks_join j.kind).leads.spells (spells_quote hm j.target)
  have := (ht.leads (nameMarks_of_marks? hm).delimits_closing hon).spells (spells_joinCondition hm h)
  simpa [JoinClause.render, JoinClause.tokens, String.append_assoc] using this

theorem delimited_clause (j : JoinClause) : Delimited (j.render d) := by
  simp only [JoinClause.render, String.append_assoc]
  exact (by decide : Delimited " ").append_right (by decide) _

/-- Texts in a row, none of which runs on with the one before it. -/
theorem spells_join {α : Type} (hm : d.marks? = some m) {text : α → String} {tokens : α → List Token} (l : List α)
    (h : ∀ a ∈ l, Spells m (text a) (tokens a)) (hd : ∀ a, Delimited (text a)) :
    Spells m (String.join (l.map text)) (l.flatMap tokens) ∧ Delimited (String.join (l.map text)) := by
  induction l with
  | nil => exact ⟨rfl, (by decide : Delimited "")⟩
  | cons a l ih =>
    obtain ⟨hs, hdel⟩ := ih fun b hb => h b (by simp [hb])
    rw [List.map_cons, String.join_cons, List.flatMap_cons]
    exact ⟨(h a (by simp)).append (nameMarks_of_marks? hm).delimits_closing hs hdel, (hd a).append hdel⟩

theorem spells_selectText (hm : d.marks? = some m) (items : List SelectItem) :
    Spells m (selectText d items) (.word "SELECT" :: commaSeparated (items.map (·.tokens d))) := by
  have hs : Leads m "SELECT " [.word "SELECT"] := rfl
  exact hs.spells (spells_intercalate hm items fun i _ => spells_item hm i)

theorem spells_fromText (hm : d.marks? = some m) (base : String) (joins : List JoinClause)
    (h : ∀ j ∈ joins, j.condition.isRawFree = true) :
    Spells m (fromText d base joins) (.word "FROM" :: .name base :: joins.flatMap JoinClause.tokens) := by
  have hf : Leads m "FROM " [.word "FROM"] := rfl
  obtain ⟨hj, hd⟩ := spells_join hm joins (fun j hj => spells_clause hm (h j hj)) delimited_clause
  exact (hf.spells (spells_quote hm base)).append (nameMarks_of_marks? hm).delimits_closing hj hd

/-! ## Filters -/

/-- The fragments after the first, each with its operator. -/
def tiedText (d : Dialect) (fs : List Filter) : String :=
  String.join (fs.map fun f => " " ++ f.op.keyword ++ " " ++ f.fragment.render d)

theorem foldl_tieFilter (fs : List Filter) {text : String} (h : text ≠ "") :
    fs.foldl (tieFilter d) text = text ++ tiedText d fs := by
  induction fs generalizing text with
  | nil => simp [tiedText]
  | cons f fs ih =>
    have ht : tieFilter d text f = text ++ (" " ++ f.op.keyword ++ " " ++ f.fragment.render d) := by
      simp [tieFilter, String.isEmpty_iff, h, String.append_assoc]
    rw [List.foldl_cons, ht, ih (fun he => h (String.append_eq_empty_iff.mp he).1)]
    simp [tiedText, String.append_assoc]

/-- Fragments without text vanish from the front, and with them the operator of the first
    that has some. -/
theorem whereText_eq (fs : List Filter) :
    whereText d fs =
      match fs.dropWhile fun f => f.fragment.render d = "" with
      | [] => ""
      | f :: rest => f.fragment.render d ++ tiedText d rest := by
  unfold whereText
  induction fs with
  | nil => rfl
  | cons f fs ih =>
    by_cases hf : f.fragment.render d = ""
    · simpa [tieFilter, hf] using ih
    · simpa [tieFilter, hf] using foldl_tieFilter fs hf

theorem spells_whereText (hm : d.marks? = some m) {fs : List Filter} (h : ∀ f ∈ fs, f.fragment.isRawFree = true) :
    Spells m (whereText d fs) (filterTokens fs) := by
  cases fs with
  | nil => rfl
  | cons f fs =>
    have hf := h f (by simp)
    have htied : ∀ g ∈ fs, Spells m (" " ++ g.op.keyword ++ " " ++ g.fragment.render d) (g.op.token :: g.fragment.tokens) :=
      fun g hg => (breaks_keyword g.op).leads.spells (spells_fragment hm _ (h g (by simp [hg])))
    obtain ⟨hs, hd⟩ := spells_join hm fs htied fun g => by
      simp only [String.append_assoc]
      exact (by decide : Delimited " ").append_right (by decide) _
    have hw : whereText d (f :: fs) = f.fragment.render d ++ tiedText d fs := by
      rw [whereText_eq]
      simp [render_ne_empty hf]
    rw [hw]
    exact (spells_fragment hm _ hf).append (nameMarks_of_marks? hm).delimits_closing hs hd

/-! ## Ordering and paging -/

theorem spells_sortKey (hm : d.marks? = some m) (k : SortKey) : Spells m (k.render d) k.tokens := by
  have hb : Breaks m " " [] := ⟨rfl, by decide, by decide⟩
  have hc := (spells_column hm k.column).leads (nameMarks_of_marks? hm).delimits_closing hb
  have hk : Spells m k.direction.keyword [.word (match k.direction with | .asc => "ASC" | .desc => "DESC")] := by
    cases k.direction <;> rfl
  simpa [SortKey.render, SortKey.tokens] using hc.spells hk

theorem spells_decimal (n : Nat) : Spells m (toString n) [decimalToken n] := by
  rw [Nat.toString_eq_ofList_toDigits]
  exact spells_number (isNumeral_toDigits n)

/-- A number after its keyword, if there is one. -/
theorem spells_count {text : String} {ts : List Token} (h : Breaks m text ts)
    (count : Option Nat) :
    Spells m (count.elim "" fun n => text ++ toString n) (count.elim [] fun n => ts ++ [decimalToken n]) ∧
      Delimited (count.elim "" fun n => text ++ toString n) := by
  cases count with
  | none => exact ⟨rfl, (by decide : Delimited "")⟩
  | some n => exact ⟨h.leads.spells (spells_decimal n), h.delimited.append_right h.ne_empty _⟩

theorem spells_limitOffset (hm : d.marks? = some m) (limit offset : Option Nat) :
    Spells m ((limit.elim "" fun n => " LIMIT " ++ toString n) ++ offset.elim "" fun n => " OFFSET " ++ toString n)
        ((limit.elim [] fun n => [.word "LIMIT", decimalToken n]) ++ offset.elim [] fun n => [.word "OFFSET", decimalToken n]) ∧
      Delimited ((limit.elim "" fun n => " LIMIT " ++ toString n) ++ offset.elim "" fun n => " OFFSET " ++ toString n) := by
  have hlimit : Breaks m " LIMIT " [.word "LIMIT"] := ⟨rfl, by decide, by decide⟩
  have hoffset : Breaks m " OFFSET " [.word "OFFSET"] := ⟨rfl, by decide, by decide⟩
  obtain ⟨hl, hld⟩ := spells_count hlimit limit
  obtain ⟨ho, hod⟩ := spells_count hoffset offset
  exact ⟨hl.append (nameMarks_of_marks? hm).delimits_closing ho hod, hld.append hod⟩

/-- Rows are skipped and fetched by number, after an ordering. -/
theorem spells_fetch (hm : d.marks? = some m) (skipped : Nat) (limit : Option Nat) (ordered : Bool) :
    Spells m ((if ordered then "" else " ORDER BY (SELECT NULL)") ++ " OFFSET " ++ toString skipped ++ " ROWS" ++
          limit.elim "" fun n => " FETCH NEXT " ++ toString n ++ " ROWS ONLY")
        ((if ordered then [] else .word "ORDER" :: .word "BY" :: parenthesized [.word "SELECT", .word "NULL"]) ++
          [.word "OFFSET", decimalToken skipped, .word "ROWS"] ++
          limit.elim [] fun n => [.word "FETCH", .word "NEXT", decimalToken n, .word "ROWS", .word "ONLY"]) ∧
      Delimited ((if ordered then "" else " ORDER BY (SELECT NULL)") ++ " OFFSET " ++ toString skipped ++ " ROWS" ++
        limit.elim "" fun n => " FETCH NEXT " ++ toString n ++ " ROWS ONLY") := by
  have hc := (nameMarks_of_marks? hm).delimits_closing
  have horder : Leads m (if ordered then "" else " ORDER BY (SELECT NULL)")
      (if ordered then [] else .word "ORDER" :: .word "BY" :: parenthesized [.word "SELECT", .word "NULL"]) := by
    cases ordered <;> rfl
  have hoffset : Leads m " OFFSET " [.word "OFFSET"] := rfl
  have hrows : Spells m " ROWS" [.word "ROWS"] := rfl
  have hskip := ((horder.append hoffset).spells (spells_decimal skipped)).append hc hrows (by decide)
  have hfetch : Spells m (limit.elim "" fun n => " FETCH NEXT " ++ toString n ++ " ROWS ONLY")
      (limit.elim [] fun n => [.word "FETCH", .word "NEXT", decimalToken n, .word "ROWS", .word "ONLY"]) ∧
      Delimited (limit.elim "" fun n => " FETCH NEXT " ++ toString n ++ " ROWS ONLY") := by
    have hnext : Leads m " FETCH NEXT " [.word "FETCH", .word "NEXT"] := rfl
    have honly : Spells m " ROWS ONLY" [.word "ROWS", .word "ONLY"] := rfl
    cases limit with
    | none => exact ⟨rfl, (by decide : Delimited "")⟩
    | some n =>
      refine ⟨(hnext.spells (spells_decimal n)).append hc honly (by decide), ?_⟩
      simp only [Option.elim, String.append_assoc]
      exact (by decide : Delimited " FETCH NEXT ").append_right (by decide) _
  refine ⟨by simpa using hskip.append hc hfetch.1 hfetch.2, ?_⟩
  have hd : Delimited (if ordered then "" else " ORDER BY (SELECT NULL)") := by cases ordered <;> decide
  simp only [String.append_assoc]
  exact hd.append ((by decide : Delimited " OFFSET ").append_right (by decide) _)

theorem spells_paging (hm : d.marks? = some m) (limit offset : Option Nat) (ordered : Bool) :
    Spells m (d.paging limit offset ordered) (d.pagingTokens limit offset ordered) ∧
      Delimited (d.paging limit offset ordered) := by
  cases d with
  | plain => cases hm
  | sqlite =>
    have := spells_limitOffset hm limit offset
    cases limit <;> cases offset <;> exact this
  | postgres =>
    have := spells_limitOffset hm limit offset
    cases limit <;> cases offset <;> exact this
  | sqlserver =>
    have := spells_fetch hm (offset.getD 0) limit ordered
    cases limit <;> cases offset <;> first | exact this | exact ⟨rfl, (by decide : Delimited "")⟩

/-! ## Statements -/

theorem Delimited.of_isSeparator {separator : String} (h : Config.isSeparator separator = true) : Delimited separator := by
  simp only [Config.isSeparator, Bool.and_eq_true, List.all_eq_true] at h
  intro c hc
  simp [delimits, h.2 c (List.mem_of_mem_head? hc)]

theorem breaks_separator {separator : String} (h : Config.isSeparator separator = true) : Breaks m separator [] := by
  have hd := Delimited.of_isSeparator h
  simp only [Config.isSeparator, Bool.and_eq_true, List.all_eq_true, Bool.not_eq_true', String.isEmpty_eq_false_iff] at h
  exact ⟨leads_of_isBlank h.2, hd, h.1⟩

theorem whereText_ne_empty {f : Filter} {fs : List Filter} (h : f.fragment.isRawFree = true) :
    whereText d (f :: fs) ≠ "" := by
  rw [whereText_eq]
  simp [render_ne_empty h, String.append_eq_empty_iff]

theorem spells_whereClause (hm : d.marks? = some m) {separator : String} (hsep : Config.isSeparator separator = true)
    {s : Statement} (h : ∀ f ∈ s.filters, f.fragment.isRawFree = true) :
    Spells m (s.whereClause d separator) (if s.filters.isEmpty then [] else .word "WHERE" :: filterTokens s.filters) ∧
      Delimited (s.whereClause d separator) := by
  have hs := breaks_separator (m := m) hsep
  have hw : Leads m "WHERE " [.word "WHERE"] := rfl
  have ht := spells_whereText hm h
  unfold Statement.whereClause
  cases hf : s.filters with
  | nil => exact ⟨rfl, (by decide : Delimited "")⟩
  | cons f fs =>
    rw [hf] at h ht
    have hne : whereText d (f :: fs) ≠ "" := whereText_ne_empty (h f (by simp))
    simp only [String.isEmpty_iff, hne, if_false, List.isEmpty_cons, Bool.false_eq_true]
    refine ⟨(hs.leads.append hw).spells ht, ?_⟩
    rw [String.append_assoc]
    exact hs.delimited.append_right hs.ne_empty _

theorem spells_orderClause (hm : d.marks? = some m) (s : Statement) :
    Spells m (s.orderClause d)
        (if s.ordering.isEmpty then [] else .word "ORDER" :: .word "BY" :: commaSeparated (s.ordering.map SortKey.tokens)) ∧
      Delimited (s.orderClause d) := by
  have hb : Breaks m " ORDER BY " [.word "ORDER", .word "BY"] := ⟨rfl, by decide, by decide⟩
  unfold Statement.orderClause
  split
  · exact ⟨rfl, (by decide : Delimited "")⟩
  · exact ⟨hb.leads.spells (spells_intercalate hm s.ordering fun k _ => spells_sortKey hm k),
      hb.delimited.append_right hb.ne_empty _⟩

/-- The text of a statement says what the statement says, whatever the separator. -/
theorem spells_statement (hm : d.marks? = some m) {separator : String} (hsep : Config.isSeparator separator = true)
    {s : Statement} (h : s.IsRawFree) : Spells m (s.render d separator) (s.tokens d) := by
  have hc := (nameMarks_of_marks? hm).delimits_closing
  obtain ⟨hwhere, hwhered⟩ := spells_whereClause hm hsep h.2
  obtain ⟨horder, horderd⟩ := spells_orderClause hm s
  obtain ⟨hpaging, hpagingd⟩ := spells_paging hm s.limit s.offset (!s.ordering.isEmpty)
  have hselect := (spells_selectText hm s.items).leads hc (breaks_separator hsep)
  have hfrom := hselect.spells (spells_fromText hm s.base s.joins h.1)
  have := ((hfrom.append hc hwhere hwhered).append hc horder horderd).append hc hpaging hpagingd
  simpa [Statement.render, Statement.tokens] using this

end SqlDraft
