/-
  SqlDraft.Proofs.Lexical.Clause — the clauses of a statement, read off its tokens. Outside of all
  parentheses certain words start a clause, which goes on up to the next such word (`clauses`).

  What else a statement holds are phrases (`Phrase`): parentheses are matched in them, and none of
  the words occurs. A name or a string is a token of its own, whatever it says, so columns,
  values, conditions and joins are phrases (`phrase_fragment`, `phrase_join`). Clauses in a row,
  each a word and a phrase, are read as these clauses (`clauses_flatten`), and the words for
  ordering and paging are found in front of them only (`count_flatten`).
-/

import SqlDraft.Proofs.Boolean.Grammar
import SqlDraft.Proofs.Lexical.Statement

namespace SqlDraft

namespace Sql

open Boolean

/-! ## The clauses of a list of tokens -/

def clauseWords : List String := ["SELECT", "FROM", "WHERE", "ORDER", "OFFSET", "FETCH"]

def Token.startsClause : Token → Bool
  | .word w => clauseWords.contains w
  | _ => false

/-- What goes on with the clause before, and the clauses after it; `n` parentheses are open. -/
def divide (n : Nat) : List Token → List Token × List (List Token)
  | [] => ([], [])
  | t :: ts =>
    if n = 0 ∧ t.startsClause then ([], (t :: (divide 0 ts).1) :: (divide 0 ts).2)
    else (t :: (divide ((nest n t).getD 0) ts).1, (divide ((nest n t).getD 0) ts).2)

def clauses (ts : List Token) : List (List Token) := (divide 0 ts).2

/-- The clause starts with these words. -/
def startsWith (words : List String) (clause : List Token) : Bool := (words.map Token.word).isPrefixOf clause

def HasClause (words : List String) (ts : List Token) : Prop := ∃ c ∈ clauses ts, startsWith words c = true

/-- Each clause that starts with `words'` stands right behind one that starts with `words`. -/
def Follows (words words' : List String) (ts : List Token) : Prop :=
  ∀ before c after, clauses ts = before ++ c :: after → startsWith words' c = true →
    ∃ b, before.getLast? = some b ∧ startsWith words b = true

variable {ts us : List Token} {cs : List (List Token)}

/-- No clause starts in `ts`, and what comes after it is read as if it came first. -/
def GoesOn (ts : List Token) : Prop :=
  ∀ rest, divide 0 (ts ++ rest) = (ts ++ (divide 0 rest).1, (divide 0 rest).2)

def pagingWords : List String := ["ORDER", "OFFSET", "FETCH"]

/-- A clause by itself, which has the words for ordering and paging in front at most. -/
def IsClause (c : List Token) : Prop :=
  ∃ t body, c = t :: body ∧ t.startsClause = true ∧ GoesOn body ∧ ∀ w ∈ pagingWords, .word w ∉ body

theorem divide_flatten (h : ∀ c ∈ cs, IsClause c) : divide 0 cs.flatten = ([], cs) := by
  induction cs with
  | nil => rfl
  | cons c cs ih =>
    obtain ⟨t, body, rfl, ht, hbody, -⟩ := h c List.mem_cons_self
    have ih := ih fun d hd => h d (List.mem_cons_of_mem _ hd)
    rw [List.flatten_cons, List.cons_append, divide, if_pos ⟨rfl, ht⟩, hbody, ih, List.append_nil]

theorem clauses_flatten (h : ∀ c ∈ cs, IsClause c) : clauses cs.flatten = cs := by rw [clauses, divide_flatten h]

theorem count_flatten (h : ∀ c ∈ cs, IsClause c) {w : String} (hw : w ∈ pagingWords) :
    cs.flatten.count (.word w) = cs.countP (startsWith [w]) := by
  induction cs with
  | nil => rfl
  | cons c cs ih =>
    obtain ⟨t, body, rfl, -, -, hbody⟩ := h c List.mem_cons_self
    have ih := ih fun d hd => h d (List.mem_cons_of_mem _ hd)
    have hstart : startsWith [w] (t :: body) = (t == .word w) := by
      rw [startsWith, List.map_singleton, List.isPrefixOf_cons_cons, List.isPrefixOf_nil_left, Bool.and_true,
        Bool.beq_comm]
    rw [List.flatten_cons, List.count_append, ih, List.count_cons, List.count_eq_zero.mpr (hbody w hw),
      List.countP_cons, hstart]
    omega

/-! ## Phrases -/

/-- Neither a parenthesis nor the start of a clause. -/
def Token.isOrdinary : Token → Bool
  | .symbol s => s ≠ "(" && s ≠ ")"
  | .word w => !clauseWords.contains w
  | _ => true

/-- Parentheses are matched, and no token starts a clause. -/
structure Phrase (ts : List Token) : Prop where
  balanced : Balanced ts
  within : ∀ t ∈ ts, t.startsClause = false

theorem divide_append (h : ∀ t ∈ ts, t.startsClause = false) {n k : Nat} (hdepth : depth n ts = some k)
    (rest : List Token) : divide n (ts ++ rest) = (ts ++ (divide k rest).1, (divide k rest).2) := by
  induction ts generalizing n with
  | nil =>
    cases hdepth
    rfl
  | cons t ts ih =>
    obtain ⟨l, hl, hdepth⟩ := Option.bind_eq_some_iff.mp hdepth
    have ht : ¬ (n = 0 ∧ t.startsClause = true) := by simp [h t List.mem_cons_self]
    have hts : ∀ u ∈ ts, u.startsClause = false := fun u hu => h u (List.mem_cons_of_mem t hu)
    rw [List.cons_append, divide, if_neg ht, hl, Option.getD_some, ih hts hdepth]
    rfl

theorem Phrase.goesOn (h : Phrase ts) : GoesOn ts := fun rest => divide_append h.within h.balanced rest

theorem Phrase.not_mem (h : Phrase ts) {w : String} (hw : w ∈ pagingWords) : .word w ∉ ts := by
  intro hmem
  have hin : ∀ v ∈ pagingWords, (Token.word v).startsClause = true := by decide
  have := h.within _ hmem
  rw [hin w hw] at this
  cases this

theorem Phrase.isClause (h : Phrase ts) {t : Token} (ht : t.startsClause = true) : IsClause (t :: ts) :=
  ⟨t, ts, rfl, ht, h.goesOn, fun _ hw => h.not_mem hw⟩

theorem Phrase.append (h : Phrase ts) (h' : Phrase us) : Phrase (ts ++ us) :=
  ⟨h.balanced.append h'.balanced, fun t ht => (List.mem_append.mp ht).elim (h.within t) (h'.within t)⟩

theorem phrase_of_isOrdinary (h : ts.all Token.isOrdinary = true) : Phrase ts := by
  induction ts with
  | nil => exact ⟨rfl, nofun⟩
  | cons t ts ih =>
    obtain ⟨ht, hts⟩ := Bool.and_eq_true_iff.mp h
    have ih := ih hts
    have hne : t ≠ .symbol "(" ∧ t ≠ .symbol ")" := by
      constructor <;> (rintro rfl; cases ht)
    have hstart : t.startsClause = false := by
      cases t <;> simp_all [Token.isOrdinary, Token.startsClause]
    exact ⟨ih.balanced.cons hne.1 hne.2, List.forall_mem_cons.mpr ⟨hstart, ih.within⟩⟩

theorem Phrase.parenthesized (h : Phrase ts) : Phrase (parenthesized ts) := by
  refine ⟨h.balanced.parenthesized, fun t ht => ?_⟩
  simp only [SqlDraft.parenthesized, List.cons_append, List.mem_cons, List.mem_append, List.not_mem_nil, or_false] at ht
  rcases ht with rfl | ht | rfl
  · rfl
  · exact h.within t ht
  · rfl

theorem phrase_flatMap {α : Type} {tokens : α → List Token} {l : List α} (h : ∀ a ∈ l, Phrase (tokens a)) :
    Phrase (l.flatMap tokens) := by
  induction l with
  | nil => exact phrase_of_isOrdinary rfl
  | cons a l ih =>
    rw [List.flatMap_cons]
    exact (h a List.mem_cons_self).append (ih fun b hb => h b (List.mem_cons_of_mem a hb))

theorem phrase_commaSeparated {parts : List (List Token)} (h : ∀ part ∈ parts, Phrase part) :
    Phrase (commaSeparated parts) := by
  induction parts with
  | nil => exact phrase_of_isOrdinary rfl
  | cons part parts ih =>
    have hpart := h part List.mem_cons_self
    have ih := ih fun p hp => h p (List.mem_cons_of_mem part hp)
    cases parts with
    | nil => simpa [commaSeparated] using hpart
    | cons q parts =>
      have hcomma : Phrase [.symbol ","] := phrase_of_isOrdinary rfl
      have := (hpart.append hcomma).append ih
      simpa [commaSeparated, List.intercalate_cons_cons] using this

end Sql

open Sql

/-! ## The phrases of a statement -/

theorem phrase_column (c : ColumnName) : Phrase c.tokens := by
  obtain ⟨table, column⟩ := c
  cases table <;> exact phrase_of_isOrdinary rfl

theorem phrase_item (d : Dialect) (i : SelectItem) : Phrase (i.tokens d) := by
  have hqualifier : Phrase (qualifierTokens i.source.table) := by
    cases i.source.table <;> exact phrase_of_isOrdinary rfl
  have hversion : Phrase (if i.isRowVersion ∧ d = .postgres then [.word "xmin", .word "as"] else []) := by
    split <;> exact phrase_of_isOrdinary rfl
  exact (hqualifier.append hversion).append (phrase_of_isOrdinary rfl)

theorem phrase_value (v : Json) : Phrase v.tokens := by
  cases v with
  | bool b => cases b <;> exact phrase_of_isOrdinary rfl
  | number n =>
    cases n with
    | integer n =>
      simp only [Json.tokens, Number.tokens]
      split <;> exact phrase_of_isOrdinary rfl
    | double x =>
      simp only [Json.tokens, Number.tokens]
      split <;> exact phrase_of_isOrdinary rfl
  | _ => exact phrase_of_isOrdinary rfl

theorem phrase_term (t : Term) : Phrase t.tokens := by
  cases t with
  | column c => exact phrase_column c
  | value v => exact phrase_value v
  | list vs =>
    refine (phrase_commaSeparated fun part hpart => ?_).parenthesized
    obtain ⟨v, -, rfl⟩ := List.mem_map.mp hpart
    exact phrase_value v

theorem phrase_nullTest (c : ColumnName) (isNull : Bool) : Phrase (nullTestTokens c isNull) := by
  refine (phrase_column c).append ?_
  cases isNull <;> exact phrase_of_isOrdinary rfl

theorem phrase_comparison (left : ColumnName) (op : ComparisonOp) (right : Term) :
    Phrase (comparisonTokens left op right) := by
  have hop : Phrase op.tokens := by cases op <;> exact phrase_of_isOrdinary rfl
  exact ((phrase_column left).append hop).append (phrase_term right)

theorem phrase_operator (op : LogicalOp) : Phrase [op.token] := by cases op <;> exact phrase_of_isOrdinary rfl

mutual

theorem phrase_fragment : ∀ f : Fragment, Phrase f.tokens
  | .nullTest c isNull => by
    rw [Fragment.tokens]
    exact (phrase_nullTest c isNull).parenthesized
  | .compare left op right => by
    rw [Fragment.tokens]
    exact (phrase_comparison left op right).parenthesized
  | .compound op [] => by
    rw [Fragment.tokens]
    exact phrase_of_isOrdinary rfl
  | .compound op (f :: fs) => by
    rw [Fragment.tokens]
    exact ((phrase_fragment f).append (phrase_rest op fs)).parenthesized
  | .not f => by
    have hnot : Phrase [.word "NOT"] := phrase_of_isOrdinary rfl
    rw [Fragment.tokens]
    exact hnot.append (phrase_fragment f).parenthesized
  | .raw sql => by
    rw [Fragment.tokens]
    exact phrase_of_isOrdinary rfl

theorem phrase_rest (op : LogicalOp) : ∀ fs : List Fragment, Phrase (Fragment.tokensRest op fs)
  | [] => by
    rw [Fragment.tokensRest]
    exact phrase_of_isOrdinary rfl
  | f :: fs => by
    rw [Fragment.tokensRest]
    exact ((phrase_operator op).append (phrase_fragment f)).append (phrase_rest op fs)

end

theorem phrase_join (j : JoinClause) : Phrase j.tokens := by
  have hkind : Phrase j.kind.tokens := by cases j.kind <;> exact phrase_of_isOrdinary rfl
  have hon : Phrase [.name j.target, .word "ON"] := phrase_of_isOrdinary rfl
  have hcondition : Phrase j.condition.tokens := by
    cases j.condition with
    | keys k =>
      have heq : Phrase [.symbol "="] := phrase_of_isOrdinary rfl
      exact ((phrase_column k.key).append (heq.append (phrase_column k.link))).parenthesized
    | explicit f => exact phrase_fragment f
  exact hkind.append (hon.append hcondition)

theorem phrase_filters (fs : List Filter) : Phrase (filterTokens fs) := by
  cases fs with
  | nil => exact phrase_of_isOrdinary rfl
  | cons f fs =>
    exact (phrase_fragment f.fragment).append
      (phrase_flatMap fun g _ => (phrase_operator g.op).append (phrase_fragment g.fragment))

theorem phrase_sortKey (k : SortKey) : Phrase k.tokens := by
  refine (phrase_column k.column).append ?_
  cases k.direction <;> exact phrase_of_isOrdinary rfl

end SqlDraft
