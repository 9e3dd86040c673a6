/-
  SqlDraft.Proofs.Condition.Null — where NULL stands in the text of a predicate. Compared with
  NULL, a column is tested, by IS NULL for `=` and IS NOT NULL for `<>`, and under any other
  operator the predicate is refused (`resolve_of_null`). A null that is the value to compare
  with, or among the values of a list, is spelled like any other value.

  The text of a predicate consists of its comparisons, in order (`resolve_leaves`), and of
  parentheses and connectives around them. So each NULL in it stands after IS or IS NOT just
  if no comparison has a null for a value (`nullsTested_tokens_iff`). A JSON value that is
  made an operand is never such a null (`not_holdsNull_ofJson`).
-/

import Mathlib.Data.List.Forall2
import SqlDraft.Proofs.Condition.Fault
import SqlDraft.Proofs.Lexical.Condition

namespace SqlDraft

open Sql

/-! ## The keyword -/

/-- Every NULL stands directly after IS or IS NOT. -/
def NullsTested (ts : List Token) : Prop :=
  ∀ before after, ts = before ++ .word "NULL" :: after →
    ∃ rest, before = rest ++ [.word "IS"] ∨ before = rest ++ [.word "IS", .word "NOT"]

/-- Some NULL stands after something else. -/
def HasStrayNull (ts : List Token) : Prop :=
  ∃ before t after, ts = before ++ t :: .word "NULL" :: after ∧ t ≠ .word "IS" ∧ t ≠ .word "NOT"

theorem nullsTested_of_not_mem {ts : List Token} (h : .word "NULL" ∉ ts) : NullsTested ts := by
  rintro before after rfl
  exact absurd (List.mem_append_right before List.mem_cons_self) h

theorem NullsTested.append {a b : List Token} (ha : NullsTested a) (hb : NullsTested b) : NullsTested (a ++ b) := by
  intro before after h
  rcases List.append_eq_append_iff.mp h with ⟨e, rfl, he⟩ | ⟨e, rfl, he⟩
  · obtain ⟨rest, hrest⟩ := hb e after he
    refine ⟨a ++ rest, ?_⟩
    rcases hrest with rfl | rfl
    · exact .inl (List.append_assoc ..).symm
    · exact .inr (List.append_assoc ..).symm
  · cases e with
    | nil =>
      -- `b` starts with the NULL, which then follows nothing there.
      obtain ⟨rest, hrest⟩ := hb [] after he.symm
      rcases hrest with hrest | hrest <;> simp at hrest
    | cons t e =>
      cases he
      exact ha before e rfl

theorem NullsTested.parenthesized {ts : List Token} (h : NullsTested ts) : NullsTested (parenthesized ts) := by
  have hopen : NullsTested [.symbol "("] := nullsTested_of_not_mem (by simp)
  have hclose : NullsTested [.symbol ")"] := nullsTested_of_not_mem (by simp)
  exact (hopen.append h).append hclose

theorem HasStrayNull.mono {a b : List Token} (h : HasStrayNull a) (hab : a <:+: b) : HasStrayNull b := by
  obtain ⟨before, t, after, rfl, hne⟩ := h
  obtain ⟨left, right, rfl⟩ := hab
  exact ⟨left ++ before, t, after ++ right, by simp, hne⟩

theorem HasStrayNull.not_nullsTested {ts : List Token} (h : HasStrayNull ts) : ¬ NullsTested ts := by
  obtain ⟨before, t, after, rfl, his, hnot⟩ := h
  intro htested
  obtain ⟨rest, hrest⟩ := htested (before ++ [t]) after (by simp)
  rcases hrest with hrest | hrest
  · exact his (by simpa using (List.append_inj' hrest rfl).2)
  · have hlast := congrArg List.getLast? hrest
    simp at hlast
    exact hnot hlast

/-! ## Nulls that are values -/

/-- A null is the value to compare with, or one of the values. -/
def Operand.HoldsNull : Operand → Prop
  | .value v => v = .null
  | .list vs => .null ∈ vs
  | .column _ | .null => False

theorem not_holdsNull_ofJson (v : Json) : ¬ (Operand.ofJson v).HoldsNull := by
  cases v <;> simp [Operand.ofJson, Operand.HoldsNull]

theorem null_mem_tokens_iff {v : Json} : .word "NULL" ∈ v.tokens ↔ v = .null := by
  cases v with
  | bool b => cases b <;> simp [Json.tokens]
  | number n => cases n <;> simp only [Json.tokens, Number.tokens] <;> split <;> simp
  | _ => simp [Json.tokens]

theorem null_not_mem_column (c : ColumnName) : .word "NULL" ∉ c.tokens := by
  obtain ⟨table, column⟩ := c
  cases table <;> simp [ColumnName.tokens, qualifierTokens]

theorem null_not_mem_op (op : ComparisonOp) : .word "NULL" ∉ op.tokens := by
  cases op <;> simp [ComparisonOp.tokens]

theorem exists_commaSeparated_cons (ts : List Token) (parts : List (List Token)) :
    ∃ rest, commaSeparated (ts :: parts) = ts ++ rest := by
  cases parts with
  | nil => exact ⟨[], by simp [commaSeparated]⟩
  | cons us parts => exact ⟨_, by simp only [commaSeparated, List.intercalate_cons_cons, List.append_assoc]; rfl⟩

/-- A null in a list stands after a comma or, if it is the first, after what is before the list. -/
theorem hasStrayNull_commaSeparated {t : Token} (his : t ≠ .word "IS") (hnot : t ≠ .word "NOT") {vs : List Json}
    (h : .null ∈ vs) : HasStrayNull (t :: commaSeparated (vs.map Json.tokens)) := by
  induction vs generalizing t with
  | nil => cases h
  | cons v vs ih =>
    rcases List.mem_cons.mp h with rfl | h
    · obtain ⟨rest, hrest⟩ := exists_commaSeparated_cons [.word "NULL"] (vs.map Json.tokens)
      exact ⟨[], t, rest, by rw [List.map_cons, Json.tokens, hrest]; rfl, his, hnot⟩
    · cases vs with
      | nil => cases h
      | cons u vs =>
        refine (ih (t := .symbol ",") (by simp) (by simp) h).mono ⟨t :: v.tokens, [], ?_⟩
        simp [commaSeparated, List.intercalate_cons_cons]

/-- The last token of an operator. -/
theorem exists_op_tokens (op : ComparisonOp) :
    ∃ before t, op.tokens = before ++ [t] ∧ t ≠ .word "IS" ∧ t ≠ .word "NOT" := by
  cases op <;> first
    | exact ⟨[], _, rfl, by simp, by simp⟩
    | exact ⟨[_], _, rfl, by simp, by simp⟩

/-! ## Comparisons -/

def Term.HoldsNull : Term → Prop
  | .value v => v = .null
  | .list vs => .null ∈ vs
  | .column _ => False

theorem hasStrayNull_compare {left : ColumnName} {op : ComparisonOp} {right : Term} (h : right.HoldsNull) :
    HasStrayNull (Fragment.compare left op right).tokens := by
  cases right with
  | column c => exact h.elim
  | value v =>
    obtain rfl : v = .null := h
    obtain ⟨before, t, hop, his, hnot⟩ := exists_op_tokens op
    refine ⟨.symbol "(" :: left.tokens ++ before, t, [.symbol ")"], ?_, his, hnot⟩
    simp [Fragment.tokens, parenthesized, comparisonTokens, hop, Term.tokens, Json.tokens]
  | list vs =>
    refine (hasStrayNull_commaSeparated (t := .symbol "(") (by simp) (by simp) h).mono
      ⟨.symbol "(" :: left.tokens ++ op.tokens, [.symbol ")", .symbol ")"], ?_⟩
    simp [Fragment.tokens, parenthesized, comparisonTokens, Term.tokens]

theorem mem_commaSeparated {t : Token} {parts : List (List Token)} (h : t ∈ commaSeparated parts) :
    t = .symbol "," ∨ ∃ ts ∈ parts, t ∈ ts := by
  induction parts with
  | nil => cases h
  | cons ts parts ih =>
    cases parts with
    | nil => exact .inr ⟨ts, List.mem_cons_self, by simpa [commaSeparated] using h⟩
    | cons us parts =>
      simp only [commaSeparated, List.intercalate_cons_cons, List.mem_append, List.mem_singleton] at h ih
      rcases h with (h | h) | h
      · exact .inr ⟨ts, List.mem_cons_self, h⟩
      · exact .inl h
      · obtain hcomma | ⟨vs, hvs, hmem⟩ := ih h
        · exact .inl hcomma
        · exact .inr ⟨vs, List.mem_cons_of_mem ts hvs, hmem⟩

theorem null_not_mem_term {t : Term} (h : ¬ t.HoldsNull) : .word "NULL" ∉ t.tokens := by
  cases t with
  | column c => exact null_not_mem_column c
  | value v => exact mt null_mem_tokens_iff.mp h
  | list vs =>
    intro hmem
    have hvalues : .word "NULL" ∈ commaSeparated (vs.map Json.tokens) := by
      simpa [Term.tokens, parenthesized] using hmem
    rcases mem_commaSeparated hvalues with hcomma | ⟨ts, hts, hnull⟩
    · cases hcomma
    · obtain ⟨v, hv, rfl⟩ := List.mem_map.mp hts
      rw [null_mem_tokens_iff.mp hnull] at hv
      exact h hv

theorem nullsTested_compare {left : ColumnName} {op : ComparisonOp} {right : Term} (h : ¬ right.HoldsNull) :
    NullsTested (Fragment.compare left op right).tokens := by
  refine nullsTested_of_not_mem ?_
  simp [Fragment.tokens, parenthesized, comparisonTokens, null_not_mem_column, null_not_mem_op, null_not_mem_term h]

theorem nullsTested_test (isNull : Bool) :
    NullsTested (.word "IS" :: (if isNull then [.word "NULL"] else [.word "NOT", .word "NULL"]) ++ [.symbol ")"]) := by
  intro before after h
  cases isNull with
  | true =>
    obtain ⟨_, rfl, rfl, -⟩ : ∃ rest, before = .word "IS" :: rest ∧ rest = [] ∧ after = [.symbol ")"] := by
      simpa [List.cons_eq_append_iff] using h
    exact ⟨[], .inl rfl⟩
  | false =>
    obtain ⟨_, rfl, _, rfl, rfl, -⟩ : ∃ rest, before = .word "IS" :: rest ∧
        ∃ rest', rest = .word "NOT" :: rest' ∧ rest' = [] ∧ after = [.symbol ")"] := by
      simpa [List.cons_eq_append_iff] using h
    exact ⟨[], .inr rfl⟩

theorem nullsTested_nullTest (c : ColumnName) (isNull : Bool) : NullsTested (Fragment.nullTest c isNull).tokens := by
  have hcolumn : NullsTested (.symbol "(" :: c.tokens) := nullsTested_of_not_mem (by simp [null_not_mem_column])
  have := hcolumn.append (nullsTested_test isNull)
  simpa [Fragment.tokens, parenthesized, nullTestTokens] using this

/-- What a comparison becomes, by what is on its right. -/
theorem resolveRight_holdsNull {r : Registry} {scope : Scope} {qualified : Bool} {field : String} {left : ColumnName}
    {op : ComparisonOp} {right : Operand} {f : Fragment}
    (h : Condition.resolveRight r scope qualified field left op right = .ok f) :
    (right = .null ∧ (op = .eq ∧ f = .nullTest left true ∨ op = .ne ∧ f = .nullTest left false)) ∨
      ∃ term, f = .compare left op term ∧ (term.HoldsNull ↔ right.HoldsNull) := by
  cases right with
  | null =>
    refine .inl ⟨rfl, ?_⟩
    cases op <;> cases h
    · exact .inl ⟨rfl, rfl⟩
    · exact .inr ⟨rfl, rfl⟩
  | list vs =>
    simp only [Condition.resolveRight] at h
    split at h
    · split at h
      · cases h
      · cases h
        exact .inr ⟨_, rfl, Iff.rfl⟩
    · cases h
  | column c =>
    simp only [Condition.resolveRight] at h
    split at h
    · cases h
    · obtain ⟨name, -, rfl⟩ := Except.map_eq_ok.mp h
      exact .inr ⟨_, rfl, Iff.rfl⟩
  | value v =>
    simp only [Condition.resolveRight] at h
    split at h
    · cases h
    · cases h
      exact .inr ⟨_, rfl, Iff.rfl⟩

variable {r : Registry} {d : Dialect} {scope : Scope} {qualified : Bool}

namespace Comparison

variable {k : Comparison} {f : Fragment}

theorem resolve_eq_ok (h : k.resolve r scope qualified = .ok f) : ∃ column,
    k.left.resolve r scope qualified = .ok column ∧
      Condition.resolveRight r scope qualified k.left.field column k.op k.right = .ok f := by
  rw [resolve, Condition.resolve] at h
  exact Except.bind_eq_ok.mp h

theorem resolve_of_null (hk : k.right = .null) (h : k.resolve r scope qualified = .ok f) : ∃ column,
    k.left.resolve r scope qualified = .ok column ∧
      (k.op = .eq ∧ f = .nullTest column true ∨ k.op = .ne ∧ f = .nullTest column false) := by
  obtain ⟨column, hcolumn, h⟩ := resolve_eq_ok h
  rcases resolveRight_holdsNull h with ⟨-, hf⟩ | ⟨term, rfl, -⟩
  · exact ⟨column, hcolumn, hf⟩
  · rw [hk] at h
    cases hop : k.op <;> rw [hop] at h <;> cases h

theorem hasStrayNull_resolve (hk : k.right.HoldsNull) (h : k.resolve r scope qualified = .ok f) :
    HasStrayNull f.tokens := by
  obtain ⟨column, -, h⟩ := resolve_eq_ok h
  rcases resolveRight_holdsNull h with ⟨hnull, -⟩ | ⟨term, rfl, hterm⟩
  · rw [hnull] at hk
    exact hk.elim
  · exact hasStrayNull_compare (hterm.mpr hk)

theorem nullsTested_resolve (hk : ¬ k.right.HoldsNull) (h : k.resolve r scope qualified = .ok f) :
    NullsTested f.tokens := by
  obtain ⟨column, -, h⟩ := resolve_eq_ok h
  rcases resolveRight_holdsNull h with ⟨-, ⟨-, rfl⟩ | ⟨-, rfl⟩⟩ | ⟨term, rfl, hterm⟩
  · exact nullsTested_nullTest column true
  · exact nullsTested_nullTest column false
  · exact nullsTested_compare (mt hterm.mp hk)

end Comparison

/-! ## Whole conditions -/

namespace Fragment

mutual

/-- The comparisons and tests, from left to right. -/
def leaves : Fragment → List Fragment
  | .nullTest c isNull => [.nullTest c isNull]
  | .compare left op right => [.compare left op right]
  | .compound _ fs => leavesOf fs
  | .not f => f.leaves
  | .raw _ => []

def leavesOf : List Fragment → List Fragment
  | [] => []
  | f :: fs => f.leaves ++ leavesOf fs

end

end Fragment

theorem respects_leaves : Respects r scope qualified
    (fun c f => List.Forall₂ (fun k leaf => k.resolve r scope qualified = .ok leaf) c.comparisons f.leaves)
    (fun cs fs => List.Forall₂ (fun k leaf => k.resolve r scope qualified = .ok leaf)
      (Condition.comparisonsOf cs) (Fragment.leavesOf fs)) where
  comparison left op right f h := by
    have hleaves : f.leaves = [f] := by
      rcases resolve_compare_cases h with ⟨column, isNull, rfl⟩ | ⟨column, term, rfl, -⟩ <;> rfl
    rw [hleaves]
    exact .cons h .nil
  compound _ _ _ h := h
  not _ _ h := h
  raw _ := .nil
  nil := .nil
  cons c cs f fs hf hfs := List.rel_append hf hfs

/-- The comparisons of a condition become those of the fragment, each at its place. -/
theorem resolve_leaves {c : Condition} {f : Fragment} (h : c.resolve r scope qualified = .ok f) :
    List.Forall₂ (fun k leaf => k.resolve r scope qualified = .ok leaf) c.comparisons f.leaves :=
  respects_leaves.resolve c h

mutual

theorem infix_tokens : ∀ (f : Fragment), ∀ leaf ∈ f.leaves, leaf.tokens <:+: f.tokens
  | .nullTest .., leaf, h => by
    obtain rfl := List.mem_singleton.mp h
    exact List.infix_rfl
  | .compare .., leaf, h => by
    obtain rfl := List.mem_singleton.mp h
    exact List.infix_rfl
  | .compound op [], leaf, h => by cases h
  | .compound op (f :: fs), leaf, h => by
    have hin : leaf.tokens <:+: f.tokens ++ Fragment.tokensRest op fs := by
      rcases List.mem_append.mp h with h | h
      · exact (infix_tokens f leaf h).trans (List.prefix_append _ _).isInfix
      · exact (infix_tokensRest op fs leaf h).trans (List.suffix_append _ _).isInfix
    rw [Fragment.tokens]
    exact hin.trans ⟨[.symbol "("], [.symbol ")"], rfl⟩
  | .not f, leaf, h => by
    rw [Fragment.tokens]
    exact (infix_tokens f leaf h).trans ⟨[.word "NOT", .symbol "("], [.symbol ")"], rfl⟩
  | .raw _, leaf, h => by cases h

theorem infix_tokensRest (op : LogicalOp) : ∀ (fs : List Fragment), ∀ leaf ∈ Fragment.leavesOf fs,
    leaf.tokens <:+: Fragment.tokensRest op fs
  | [], leaf, h => by cases h
  | f :: fs, leaf, h => by
    rw [Fragment.tokensRest]
    rcases List.mem_append.mp h with h | h
    · exact (infix_tokens f leaf h).trans ⟨[op.token], Fragment.tokensRest op fs, rfl⟩
    · exact (infix_tokensRest op fs leaf h).trans (List.suffix_append _ _).isInfix

end

mutual

theorem infix_render : ∀ f : Fragment, ∀ leaf ∈ f.leaves, (leaf.render d).toList <:+: (f.render d).toList
  | .nullTest .., leaf, h => by
    obtain rfl := List.mem_singleton.mp h
    exact List.infix_rfl
  | .compare .., leaf, h => by
    obtain rfl := List.mem_singleton.mp h
    exact List.infix_rfl
  | .compound op [], leaf, h => by cases h
  | .compound op (f :: fs), leaf, h => by
    simp only [Fragment.render, String.toList_append, List.append_assoc]
    rcases List.mem_append.mp h with h | h
    · exact (infix_render f leaf h).trans ⟨_, _, List.append_assoc ..⟩
    · exact (infix_renderRest op fs leaf h).trans ⟨"(".toList ++ (f.render d).toList, ")".toList, by
        simp only [List.append_assoc]⟩
  | .not f, leaf, h => by
    simp only [Fragment.render, String.toList_append, List.append_assoc]
    exact (infix_render f leaf h).trans ⟨_, _, List.append_assoc ..⟩
  | .raw _, leaf, h => by cases h

theorem infix_renderRest (op : LogicalOp) : ∀ fs : List Fragment, ∀ leaf ∈ Fragment.leavesOf fs,
    (leaf.render d).toList <:+: (Fragment.renderRest d op fs).toList
  | [], leaf, h => by cases h
  | f :: fs, leaf, h => by
    simp only [Fragment.renderRest, String.toList_append]
    rcases List.mem_append.mp h with h | h
    · exact (infix_render f leaf h).trans ⟨_, _, rfl⟩
    · exact (infix_renderRest op fs leaf h).trans ⟨_, [], List.append_nil _⟩

end

mutual

theorem nullsTested_tokens : ∀ f : Fragment, (∀ leaf ∈ f.leaves, NullsTested leaf.tokens) → NullsTested f.tokens
  | .nullTest c isNull, h => h _ List.mem_cons_self
  | .compare left op right, h => h _ List.mem_cons_self
  | .compound op [], _ => nullsTested_of_not_mem (by simp [Fragment.tokens])
  | .compound op (f :: fs), h => by
    have hf := nullsTested_tokens f fun leaf hl => h leaf (List.mem_append_left _ hl)
    have hfs := nullsTested_tokensRest op fs fun leaf hl => h leaf (List.mem_append_right _ hl)
    rw [Fragment.tokens]
    exact (hf.append hfs).parenthesized
  | .not f, h => by
    have hnot : NullsTested [.word "NOT"] := nullsTested_of_not_mem (by simp)
    rw [Fragment.tokens]
    exact hnot.append (nullsTested_tokens f h).parenthesized
  | .raw _, _ => nullsTested_of_not_mem (by simp [Fragment.tokens])

theorem nullsTested_tokensRest (op : LogicalOp) : ∀ fs : List Fragment,
    (∀ leaf ∈ Fragment.leavesOf fs, NullsTested leaf.tokens) → NullsTested (Fragment.tokensRest op fs)
  | [], _ => nullsTested_of_not_mem (by simp [Fragment.tokensRest])
  | f :: fs, h => by
    have hop : NullsTested [op.token] := nullsTested_of_not_mem (by cases op <;> simp [LogicalOp.token])
    have hf := nullsTested_tokens f fun leaf hl => h leaf (List.mem_append_left _ hl)
    have hfs := nullsTested_tokensRest op fs fun leaf hl => h leaf (List.mem_append_right _ hl)
    rw [Fragment.tokensRest]
    exact (hop.append hf).append hfs

end

/-- Nulls that are values, and no others, are not tested. -/
theorem nullsTested_tokens_iff {c : Condition} {f : Fragment} (h : c.resolve r scope qualified = .ok f) :
    NullsTested f.tokens ↔ ∀ k ∈ c.comparisons, ¬ k.right.HoldsNull := by
  have hleaves := resolve_leaves h
  constructor
  · intro htested k hk hnull
    obtain ⟨leaf, hleaf, hresolve⟩ := exists_of_mem_forall₂ hleaves hk
    exact ((k.hasStrayNull_resolve hnull hresolve).mono (infix_tokens f leaf hleaf)).not_nullsTested htested
  · intro hvalues
    refine nullsTested_tokens f fun leaf hleaf => ?_
    obtain ⟨k, hk, hresolve⟩ := exists_of_mem_forall₂ hleaves.flip hleaf
    exact k.nullsTested_resolve (hvalues k hk) hresolve

/-! ## Predicates -/

/-- What becomes of the nulls of a predicate. In a dialect that quotes no names, a name may be
    anything, so there the keyword is looked for among the tokens that the text was made of. -/
structure NullsJudged (r : Registry) (d : Dialect) (qualified : Bool) (p : Predicate) : Prop where
  tested : ∀ k ∈ p.condition.comparisons, k.right = .null → ∀ sql, p.toSql r d qualified = .ok sql →
    ∃ column, k.left.resolve r p.scope qualified = .ok column ∧
      (k.op = .eq ∧ ("(" ++ column.render d ++ " IS NULL)").toList <:+: sql.toList ∨
        k.op = .ne ∧ ("(" ++ column.render d ++ " IS NOT NULL)").toList <:+: sql.toList)
  refused : ∀ e, p.toSql r d qualified = .error e → ∃ fault, e = .predicate fault
  spelled : ∀ sql, p.toSql r d qualified = .ok sql → ∃ f, p.resolve r qualified = .ok f ∧ sql = f.render d ∧
    (∀ m, d.marks? = some m → Sql.lex m sql = some f.tokens) ∧
    (NullsTested f.tokens ↔ ∀ k ∈ p.condition.comparisons, ¬ k.right.HoldsNull)

/-- A column compared with NULL is tested, or there is no text. All NULLs in the text are parts
    of such tests just if no comparison has a null for a value, which a JSON value made an
    operand is not. -/
theorem nulls_toSql {p : Predicate} (hraw : p.condition.isRawFree = true) (d : Dialect) (qualified : Bool) :
    NullsJudged r d qualified p ∧ ∀ v, ¬ (Operand.ofJson v).HoldsNull := by
  refine ⟨?_, not_holdsNull_ofJson⟩
  constructor
  case tested =>
    intro k hk hnull sql hsql
    obtain ⟨f, hf, rfl⟩ := Except.map_eq_ok.mp hsql
    obtain ⟨leaf, hleaf, hresolve⟩ := exists_of_mem_forall₂ (resolve_leaves (Predicate.resolve_eq_ok hf)) hk
    obtain ⟨column, hcolumn, htest⟩ := k.resolve_of_null hnull hresolve
    have hpart := infix_render (d := d) f leaf hleaf
    refine ⟨column, hcolumn, ?_⟩
    rcases htest with ⟨hop, rfl⟩ | ⟨hop, rfl⟩
    · exact .inl ⟨hop, hpart⟩
    · exact .inr ⟨hop, hpart⟩
  case refused =>
    intro e he
    obtain ⟨_, _, _, fault, -, -, -, rfl⟩ := Predicate.toSql_eq_error_iff.mp he
    exact ⟨fault, rfl⟩
  case spelled =>
    intro sql hsql
    obtain ⟨f, hf, rfl⟩ := Except.map_eq_ok.mp hsql
    have hresolve := Predicate.resolve_eq_ok hf
    have hfree : f.isRawFree = true := by rw [isRawFree_resolve hresolve, hraw]
    exact ⟨f, hf, rfl, fun m hm => spells_fragment hm f hfree, nullsTested_tokens_iff hresolve⟩

/-- A string that says NULL is none. -/
theorem nulls_toSql_not :
    let a : ColumnRef := ⟨⟨"T"⟩, "a"⟩
    let p : Predicate := .single ⟨"T"⟩ (.compound .and [.not (.isNull a), .ne a (Operand.ofJson (.text "NULL"))])
    let sql := "(NOT ((\"a\" IS NULL)) AND (\"a\" <> 'NULL'))"
    p.toSql ⟨[⟨⟨"T"⟩, "T", [{ name := "a" }]⟩]⟩ .sqlite false = .ok sql ∧
      ∃ ts, Sql.lex ⟨'"', '"'⟩ sql = some ts ∧ NullsTested ts := by
  intro a p sql
  have hsql : p.toSql ⟨[⟨⟨"T"⟩, "T", [{ name := "a" }]⟩]⟩ .sqlite false = .ok sql := rfl
  obtain ⟨hnulls, hofJson⟩ := nulls_toSql (p := p) rfl .sqlite false
  obtain ⟨f, -, -, hlex, hiff⟩ := hnulls.spelled sql hsql
  refine ⟨hsql, f.tokens, hlex _ rfl, hiff.mpr fun k hk => ?_⟩
  rcases List.mem_cons.mp hk with rfl | hk
  · exact id
  · rw [List.mem_singleton.mp hk]
    exact hofJson (.text "NULL")

/-- A null that is put in place of a value is compared, and one in a list is too. -/
theorem null_compared :
    let r : Registry := ⟨[⟨⟨"T"⟩, "T", [{ name := "a" }]⟩]⟩
    let a : ColumnRef := ⟨⟨"T"⟩, "a"⟩
    let value := "(\"a\" = NULL)"
    let list := "(\"a\" NOT IN (1, NULL))"
    ((Predicate.single ⟨"T"⟩ (.eq a (.value .null))).toSql r .sqlite false = .ok value ∧
      ∃ ts, Sql.lex ⟨'"', '"'⟩ value = some ts ∧ ¬ NullsTested ts) ∧
    (Predicate.single ⟨"T"⟩ (.compare a .notIn (.list [.number (.integer 1), .null]))).toSql r .sqlite false =
        .ok list ∧
      ∃ ts, Sql.lex ⟨'"', '"'⟩ list = some ts ∧ ¬ NullsTested ts := by
  intro r a value list
  refine ⟨⟨rfl, [.symbol "(", .name "a", .symbol "=", .word "NULL", .symbol ")"], by decide +kernel, ?_⟩, rfl,
    [.symbol "(", .name "a", .word "NOT", .word "IN", .symbol "(", .number "1", .symbol ",", .word "NULL",
      .symbol ")", .symbol ")"], by decide +kernel, ?_⟩
  · exact HasStrayNull.not_nullsTested ⟨[.symbol "(", .name "a"], .symbol "=", [.symbol ")"], rfl, by simp, by simp⟩
  · exact HasStrayNull.not_nullsTested ⟨[.symbol "(", .name "a", .word "NOT", .word "IN", .symbol "(", .number "1"],
      .symbol ",", [.symbol ")", .symbol ")"], rfl, by simp, by simp⟩

end SqlDraft
