/-
  SqlDraft.Proofs.Boolean.Meaning — the text of a condition without raw text means what the
  condition means. A conjunction is true if all of its members are and a disjunction if one
  of them is; a compound without members is true under either operator.

  A fragment reads as one factor, whatever it is a part of (`reads_fragment`), and the
  reading has the value of the condition the fragment was resolved from (`value_resolve`).
-/

import SqlDraft.Proofs.Boolean.Grammar

namespace SqlDraft

open Sql Boolean

/-! ## Values -/

namespace Condition

mutual

/-- The value of a condition, given those of its comparisons and its raw texts. -/
def value (v : Condition → Bool) : Condition → Bool
  | .compare left op right => v (.compare left op right)
  | .compound _ [] => true
  | .compound .and (c :: cs) => c.value v && allTrue v cs
  | .compound .or (c :: cs) => c.value v || anyTrue v cs
  | .not c => !c.value v
  | .raw sql => v (.raw sql)

def allTrue (v : Condition → Bool) : List Condition → Bool
  | [] => true
  | c :: cs => c.value v && allTrue v cs

def anyTrue (v : Condition → Bool) : List Condition → Bool
  | [] => false
  | c :: cs => c.value v || anyTrue v cs

end

end Condition

/-- What stands between the parentheses of a comparison. -/
def Fragment.comparison : Fragment → List Token
  | .nullTest c isNull => nullTestTokens c isNull
  | .compare left op right => comparisonTokens left op right
  | _ => []

/-- The tokens of a comparison once its columns are found. -/
def Condition.comparison (r : Registry) (scope : Scope) (qualified : Bool) (c : Condition) : List Token :=
  (c.resolve r scope qualified).toOption.elim [] Fragment.comparison

/-! ## Readings -/

def LogicalOp.join : LogicalOp → Formula → Formula → Formula
  | .and => .and
  | .or => .or

/-- The level at which the operator joins. -/
def LogicalOp.level : LogicalOp → Level
  | .and => .conjunction
  | .or => .disjunction

namespace Fragment

mutual

/-- The reading of a fragment, which is told for raw text only to be total. -/
def formula : Fragment → Formula
  | .nullTest c isNull => .comparison (nullTestTokens c isNull)
  | .compare left op right => .comparison (comparisonTokens left op right)
  | .compound _ [] => .constant true
  | .compound op (f :: fs) => formulaRest op f.formula fs
  | .not f => .not f.formula
  | .raw sql => .comparison [.text sql]

/-- Joins further fragments to what has been read. -/
def formulaRest (op : LogicalOp) (φ : Formula) : List Fragment → Formula
  | [] => φ
  | f :: fs => formulaRest op (op.join φ f.formula) fs

end

end Fragment

theorem isComparison_nullTest (c : ColumnName) (isNull : Bool) : IsComparison (nullTestTokens c isNull) := by
  cases isNull with
  | true => exact .isNull (.column c)
  | false => exact .isNotNull (.column c)

theorem isComparison_compare {left : ColumnName} {op : ComparisonOp} {right : Term}
    (h : Fragment.suits op right = true) : IsComparison (comparisonTokens left op right) := by
  cases right with
  | column c => exact .compare (.column left) (by simpa [Fragment.suits] using h) (.column c)
  | value v => exact .compare (.column left) (by simpa [Fragment.suits] using h) (.value v)
  | list vs =>
    simp only [Fragment.suits, Bool.and_eq_true, Bool.not_eq_true', List.isEmpty_eq_false_iff] at h
    refine .list (.column left) h.1 (by simpa using h.2) ?_
    intro ts hts
    obtain ⟨v, -, rfl⟩ := List.mem_map.mp hts
    exact .value v

/-- A comparison in its parentheses is a factor, and so is what is joined inside of others. -/
theorem Boolean.Reads.inParentheses {l : Level} {ts : List Token} {φ : Formula} (h : Reads l ts φ) :
    Reads .factor (parenthesized ts) φ := by
  cases l with
  | disjunction => exact .group h
  | conjunction => exact .group (.conjunction h)
  | factor => exact .group (.conjunction (.factor h))

theorem Boolean.Reads.toLevel {ts : List Token} {φ : Formula} (h : Reads .factor ts φ) (op : LogicalOp) :
    Reads op.level ts φ := by
  cases op with
  | and => exact .factor h
  | or => exact .conjunction (.factor h)

theorem Boolean.Reads.join {op : LogicalOp} {a b : List Token} {φ ψ : Formula} (ha : Reads op.level a φ)
    (hb : Reads .factor b ψ) : Reads op.level (a ++ op.token :: b) (op.join φ ψ) := by
  cases op with
  | and => exact .and ha hb
  | or => exact .or ha (.factor hb)

mutual

theorem reads_fragment : ∀ f : Fragment, f.isRawFree = true → f.isWellFormed = true → Reads .factor f.tokens f.formula
  | .nullTest c isNull, _, _ => (Reads.comparison (isComparison_nullTest c isNull)).inParentheses
  | .compare left op right, _, hw => (Reads.comparison (isComparison_compare hw)).inParentheses
  | .compound op [], _, _ => by
    rw [Fragment.tokens, Fragment.formula]
    exact .isTrue
  | .compound op (f :: fs), hr, hw => by
    rw [Fragment.isRawFree, Fragment.areRawFree, Bool.and_eq_true] at hr
    rw [Fragment.isWellFormed, Fragment.areWellFormed, Bool.and_eq_true] at hw
    rw [Fragment.tokens, Fragment.formula]
    exact (reads_rest op fs hr.2 hw.2 ((reads_fragment f hr.1 hw.1).toLevel op)).inParentheses
  | .not f, hr, hw => by
    rw [Fragment.tokens, Fragment.formula]
    exact .not (reads_fragment f hr hw).inParentheses

theorem reads_rest (op : LogicalOp) : ∀ fs : List Fragment, Fragment.areRawFree fs = true →
    Fragment.areWellFormed fs = true → ∀ {ts : List Token} {φ : Formula}, Reads op.level ts φ →
    Reads op.level (ts ++ Fragment.tokensRest op fs) (Fragment.formulaRest op φ fs)
  | [], _, _, ts, φ, h => by
    rw [Fragment.tokensRest, Fragment.formulaRest, List.append_nil]
    exact h
  | f :: fs, hr, hw, ts, φ, h => by
    rw [Fragment.areRawFree, Bool.and_eq_true] at hr
    rw [Fragment.areWellFormed, Bool.and_eq_true] at hw
    have := reads_rest op fs hr.2 hw.2 (h.join (reads_fragment f hr.1 hw.1))
    rw [Fragment.tokensRest, Fragment.formulaRest]
    simpa using this

end

/-! ## Same value -/

/-- The value of a compound whose first members have the value `b`. -/
def LogicalOp.fold (v : Condition → Bool) (b : Bool) (cs : List Condition) : LogicalOp → Bool
  | .and => b && Condition.allTrue v cs
  | .or => b || Condition.anyTrue v cs

variable {r : Registry} {scope : Scope} {qualified : Bool}

theorem value_compound (v : Condition → Bool) (op : LogicalOp) (c : Condition) (cs : List Condition) :
    (Condition.compound op (c :: cs)).value v = op.fold v (c.value v) cs := by
  cases op <;> rfl

theorem fold_cons (v : Condition → Bool) (op : LogicalOp) (b : Bool) (c : Condition) (cs : List Condition) :
    op.fold v b (c :: cs) = op.fold v (op.fold v b [c]) cs := by
  cases op <;> simp [LogicalOp.fold, Condition.allTrue, Condition.anyTrue, Bool.and_assoc, Bool.or_assoc]

theorem value_join (v : List Token → Bool) (w : Condition → Bool) (op : LogicalOp) (φ ψ : Formula) (c : Condition)
    (h : ψ.value v = c.value w) : (op.join φ ψ).value v = op.fold w (φ.value v) [c] := by
  cases op <;> simp [LogicalOp.join, Formula.value, LogicalOp.fold, Condition.allTrue, Condition.anyTrue, h]

/-- A comparison has the value that is given for its tokens. -/
theorem value_leaf (v : List Token → Bool) {c : Condition} {f : Fragment} (h : c.resolve r scope qualified = .ok f)
    (hf : f.formula = .comparison f.comparison) : f.formula.value v = v (c.comparison r scope qualified) := by
  rw [hf, Condition.comparison, h]
  rfl

/-- Of a list both are kept: its value as a compound and its value as the rest of one. -/
theorem respects_value (v : List Token → Bool) {w : Condition → Bool}
    (hw : w = fun leaf => v (leaf.comparison r scope qualified)) :
    Respects r scope qualified (fun c f => c.isRawFree = true → f.formula.value v = c.value w)
      (fun cs fs => Condition.areRawFree cs = true →
        (∀ op, (Fragment.compound op fs).formula.value v = (Condition.compound op cs).value w) ∧
          ∀ op φ, (Fragment.formulaRest op φ fs).value v = op.fold w (φ.value v) cs) where
  comparison left op right f h := by
    intro _
    have hf : f.formula = .comparison f.comparison := by
      rcases resolve_compare_cases h with ⟨column, isNull, rfl⟩ | ⟨column, term, rfl, -⟩ <;> rfl
    rw [value_leaf v h hf, hw]
    rfl
  compound op cs fs h := by
    intro hr
    exact (h hr).1 op
  not c f h := by
    intro hr
    rw [Fragment.formula, Formula.value, Condition.value, h hr]
  raw sql hr := by cases hr
  nil _ := by
    refine ⟨fun op => rfl, fun op φ => ?_⟩
    cases op <;> simp [Fragment.formulaRest, LogicalOp.fold, Condition.allTrue, Condition.anyTrue]
  cons c cs f fs hf hfs := by
    intro hr
    rw [Condition.areRawFree, Bool.and_eq_true] at hr
    have hrest := (hfs hr.2).2
    constructor
    · intro op
      rw [value_compound, ← hf hr.1, Fragment.formula]
      exact hrest op f.formula
    · intro op φ
      rw [Fragment.formulaRest, hrest, fold_cons, value_join v w op φ f.formula c (hf hr.1)]

theorem value_resolve (v : List Token → Bool) {c : Condition} {f : Fragment} (hr : c.isRawFree = true)
    (h : c.resolve r scope qualified = .ok f) :
    f.formula.value v = c.value fun leaf => v (leaf.comparison r scope qualified) :=
  (respects_value v rfl).resolve c h hr

/-! ## Predicates -/

/-- The text of a predicate has exactly one reading, and the reading has the value of the
    condition, whichever of the comparisons are true. -/
theorem meaning_toSql {d : Dialect} {m : Text.Marks} {p : Predicate} {sql : String} (hm : d.marks? = some m)
    (hraw : p.condition.isRawFree = true) (h : p.toSql r d qualified = .ok sql) :
    ∃ ts φ, Sql.lex m sql = some ts ∧ Reads .disjunction ts φ ∧ (∀ ψ, Reads .disjunction ts ψ → ψ = φ) ∧
      ∀ v : List Token → Bool,
        φ.value v = p.condition.value fun leaf => v (leaf.comparison r p.scope qualified) := by
  obtain ⟨f, hf, rfl⟩ := Except.map_eq_ok.mp h
  have hresolve := Predicate.resolve_eq_ok hf
  have hfree : f.isRawFree = true := by rw [isRawFree_resolve hresolve, hraw]
  have hreads : Reads .disjunction f.tokens f.formula :=
    .conjunction (.factor (reads_fragment f hfree (isWellFormed_resolve hresolve)))
  refine ⟨f.tokens, f.formula, spells_fragment hm f hfree, hreads, ?_, ?_⟩
  · intro ψ hψ
    exact hψ.unique hreads
  · intro v
    exact value_resolve v hraw hresolve

/-- The name of the column looks like two conditions. -/
theorem meaning_toSql_or :
    ∃ ts φ, Sql.lex ⟨'"', '"'⟩ "(NOT ((\"a OR b\" IS NULL)) AND TRUE)" = some ts ∧ Reads .disjunction ts φ ∧
      ∀ v : List Token → Bool, φ.value v = !v [.name "a OR b", .word "IS", .word "NULL"] := by
  have hsql : (Predicate.single ⟨"T"⟩ (.compound .and [.not (.isNull ⟨⟨"T"⟩, "a"⟩), .compound .or []])).toSql
      ⟨[⟨⟨"T"⟩, "T", [{ name := "a", column := "a OR b" }]⟩]⟩ .sqlite false =
        .ok "(NOT ((\"a OR b\" IS NULL)) AND TRUE)" := rfl
  obtain ⟨ts, φ, hlex, hreads, -, hvalue⟩ := meaning_toSql rfl rfl hsql
  refine ⟨ts, φ, hlex, hreads, fun v => ?_⟩
  rw [hvalue v]
  exact Bool.and_true _

end SqlDraft
