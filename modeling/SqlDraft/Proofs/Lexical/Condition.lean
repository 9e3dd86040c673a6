/-
  SqlDraft.Proofs.Lexical.Condition — what names, values and conditions say, token by token,
  and that their texts say it.

  A name is one token, and so are a string and the JSON text of an array or an object; each
  holds the original. A dialect has a say in what reads a row version only.

  Raw text may be anything, so it is left out (`isRawFree`). Of all other parts the tokens
  are those of the text: `spells_column`, `spells_literal`, and with them
  `spells_fragment`.
-/

import SqlDraft.Proofs.Condition.Resolved
import SqlDraft.Proofs.Lexical.Numeral

namespace SqlDraft

open Sql

/-! ## Tokens -/

/-- With commas between. -/
def commaSeparated (parts : List (List Token)) : List Token := [Token.symbol ","].intercalate parts

def parenthesized (ts : List Token) : List Token := .symbol "(" :: ts ++ [.symbol ")"]

/-- A table in front of one of its columns. -/
def qualifierTokens : Option String → List Token
  | some table => [.name table, .symbol "."]
  | none => []

def ColumnName.tokens (c : ColumnName) : List Token := qualifierTokens c.table ++ [.name c.column]

/-- In PostgreSQL a row version is read from `xmin`. -/
def SelectItem.tokens (d : Dialect) (i : SelectItem) : List Token :=
  qualifierTokens i.source.table ++
    (if i.isRowVersion ∧ d = .postgres then [.word "xmin", .word "as"] else []) ++ [.name i.source.column]

/-- The digits, after a minus if the number is negative. -/
def Number.tokens : Number → List Token
  | .integer n =>
    if n < 0 then [.symbol "-", .number (String.ofList (Nat.toDigits 10 n.natAbs))]
    else [.number (String.ofList (Nat.toDigits 10 n.natAbs))]
  | .double x =>
    if x.negative then [.symbol "-", .number (String.ofList (Number.style.spell x.shortest))]
    else [.number (String.ofList (Number.style.spell x.shortest))]

def Json.tokens : Json → List Sql.Token
  | .null => [.word "NULL"]
  | .bool true => [.word "TRUE"]
  | .bool false => [.word "FALSE"]
  | .number n => n.tokens
  | .text t => [.text t]
  | value => [.text value.compact]

def ComparisonOp.tokens : ComparisonOp → List Token
  | .eq => [.symbol "="]
  | .ne => [.symbol "<>"]
  | .lt => [.symbol "<"]
  | .le => [.symbol "<="]
  | .gt => [.symbol ">"]
  | .ge => [.symbol ">="]
  | .like => [.word "LIKE"]
  | .notLike => [.word "NOT", .word "LIKE"]
  | .isIn => [.word "IN"]
  | .notIn => [.word "NOT", .word "IN"]

def LogicalOp.token : LogicalOp → Token
  | .and => .word "AND"
  | .or => .word "OR"

def Term.tokens : Term → List Token
  | .column c => c.tokens
  | .value v => v.tokens
  | .list vs => parenthesized (commaSeparated (vs.map Json.tokens))

def nullTestTokens (c : ColumnName) (isNull : Bool) : List Token :=
  c.tokens ++ (.word "IS" :: if isNull then [.word "NULL"] else [.word "NOT", .word "NULL"])

def comparisonTokens (left : ColumnName) (op : ComparisonOp) (right : Term) : List Token :=
  left.tokens ++ op.tokens ++ right.tokens

namespace Fragment

mutual

def tokens : Fragment → List Token
  | .nullTest c isNull => parenthesized (nullTestTokens c isNull)
  | .compare left op right => parenthesized (comparisonTokens left op right)
  | .compound _ [] => [.word "TRUE"]
  | .compound op (f :: fs) => parenthesized (f.tokens ++ tokensRest op fs)
  | .not f => .word "NOT" :: parenthesized f.tokens
  | .raw _ => []

def tokensRest (op : LogicalOp) : List Fragment → List Token
  | [] => []
  | f :: fs => op.token :: f.tokens ++ tokensRest op fs

end

end Fragment

/-! ## Names -/

variable {d : Dialect} {m : Text.Marks}

theorem quote_eq (hm : d.marks? = some m) (name : String) : d.quote name = m.quote name := by
  simp [Dialect.quote, hm]

theorem spells_quote (hm : d.marks? = some m) (name : String) : Spells m (d.quote name) [.name name] := by
  rw [quote_eq hm]
  exact spells_quote_name (nameMarks_of_marks? hm) name

theorem leads_qualifier (hm : d.marks? = some m) (table : Option String) :
    Leads m (d.qualifier table) (qualifierTokens table) := by
  cases table with
  | none => rfl
  | some t =>
    simp only [Dialect.qualifier, quote_eq hm]
    exact leads_quote_dot (nameMarks_of_marks? hm) t

theorem spells_column (hm : d.marks? = some m) (c : ColumnName) : Spells m (c.render d) c.tokens :=
  (leads_qualifier hm c.table).spells (spells_quote hm c.column)

theorem spells_item (hm : d.marks? = some m) (i : SelectItem) : Spells m (i.render d) (i.tokens d) := by
  have hq := leads_qualifier hm i.source.table
  have hc := spells_quote hm i.source.column
  unfold SelectItem.render SelectItem.tokens Dialect.reading
  by_cases hv : i.isRowVersion = true ∧ d = .postgres
  · obtain ⟨hv, rfl⟩ := hv
    have hx : Leads m "xmin as " [.word "xmin", .word "as"] := rfl
    simpa [hv, Dialect.rowVersion] using hq.spells (hx.spells hc)
  · have hr : (if i.isRowVersion = true then d.rowVersion i.source.column else d.quote i.source.column) =
        d.quote i.source.column := by
      split
      · rename_i h
        cases d <;> simp_all [Dialect.rowVersion]
      · rfl
    simpa [hv, hr] using hq.spells hc

/-! ## Values -/

theorem spells_spell (n : Number) : Spells m (String.ofList n.spell) n.tokens := by
  cases n with
  | integer n =>
    simp only [Number.spell, Number.tokens]
    split
    · exact spells_negative (isNumeral_toDigits _)
    · exact spells_number (isNumeral_toDigits _)
  | double x =>
    simp only [Number.spell, Number.tokens]
    split
    · exact spells_negative (isNumeral_spell _ x)
    · exact spells_number (isNumeral_spell _ x)

theorem spells_literal (v : Json) : Spells m v.literal v.tokens := by
  cases v with
  | null => rfl
  | bool b => cases b <;> rfl
  | number n => exact spells_spell n
  | text t => exact spells_quote_text t
  | array vs => exact spells_quote_text _
  | object ms => exact spells_quote_text _

/-- Texts with a comma and a blank between. -/
theorem spells_intercalate {α : Type} (hm : d.marks? = some m) {text : α → String} {tokens : α → List Token}
    (l : List α) (h : ∀ a ∈ l, Spells m (text a) (tokens a)) :
    Spells m (", ".intercalate (l.map text)) (commaSeparated (l.map tokens)) := by
  induction l with
  | nil => rfl
  | cons a l ih =>
    cases l with
    | nil => simpa [commaSeparated] using h a (by simp)
    | cons b l =>
      have hcomma : Breaks m ", " [.symbol ","] := ⟨rfl, by decide, by decide⟩
      have ha := (h a (by simp)).leads (nameMarks_of_marks? hm).delimits_closing hcomma
      have := ha.spells (ih fun c hc => h c (by simp [hc]))
      simpa [commaSeparated, String.intercalate_cons_cons, List.intercalate_cons_cons] using this

/-! ## Conditions -/

theorem leads_parenthesized (hm : d.marks? = some m) {text : String} {ts : List Token} (h : Spells m text ts) :
    Leads m ("(" ++ text ++ ")") (parenthesized ts) := by
  have ho : Leads m "(" [.symbol "("] := rfl
  exact (ho.spells h).leads (nameMarks_of_marks? hm).delimits_closing ⟨rfl, by decide, by decide⟩

theorem spells_term (hm : d.marks? = some m) (t : Term) : Spells m (t.render d) t.tokens := by
  cases t with
  | column c => exact spells_column hm c
  | value v => exact spells_literal v
  | list vs => exact (leads_parenthesized hm (spells_intercalate hm vs fun v _ => spells_literal v)).toSpells

theorem spells_symbol (op : ComparisonOp) : Spells m op.symbol op.tokens := by cases op <;> rfl

theorem breaks_keyword (op : LogicalOp) : Breaks m (" " ++ op.keyword ++ " ") [op.token] := by
  cases op <;> exact ⟨rfl, by decide, by decide⟩

theorem leads_nullTest (hm : d.marks? = some m) (c : ColumnName) (isNull : Bool) :
    Leads m ((Fragment.nullTest c isNull).render d) (Fragment.nullTest c isNull).tokens := by
  have ho : Leads m "(" [.symbol "("] := rfl
  have hc := ho.spells (spells_column hm c)
  have hm := (nameMarks_of_marks? hm).delimits_closing
  cases isNull with
  | true =>
    have hend : Breaks m " IS NULL)" [.word "IS", .word "NULL", .symbol ")"] := ⟨rfl, by decide, by decide⟩
    simpa [Fragment.render, Fragment.tokens, parenthesized, nullTestTokens] using hc.leads hm hend
  | false =>
    have hend : Breaks m " IS NOT NULL)" [.word "IS", .word "NOT", .word "NULL", .symbol ")"] :=
      ⟨rfl, by decide, by decide⟩
    simpa [Fragment.render, Fragment.tokens, parenthesized, nullTestTokens] using hc.leads hm hend

theorem leads_comparison (hm : d.marks? = some m) (left : ColumnName) (op : ComparisonOp) (right : Term) :
    Leads m ((Fragment.compare left op right).render d) (Fragment.compare left op right).tokens := by
  have hb : Breaks m " " [] := ⟨rfl, by decide, by decide⟩
  have hc := (nameMarks_of_marks? hm).delimits_closing
  have hleft := (spells_column hm left).leads hc hb
  have hop := (hleft.spells (spells_symbol op)).leads hc hb
  have := leads_parenthesized hm (hop.spells (spells_term hm right))
  simpa [Fragment.render, Fragment.tokens, comparisonTokens, String.append_assoc] using this

theorem delimited_renderRest (op : LogicalOp) (fs : List Fragment) : Delimited (Fragment.renderRest d op fs) := by
  cases fs with
  | nil => exact (by decide : Delimited "")
  | cons f fs =>
    simp only [Fragment.renderRest, String.append_assoc]
    exact (by decide : Delimited " ").append_right (by decide) _

mutual

theorem spells_fragment (hm : d.marks? = some m) : ∀ f : Fragment, f.isRawFree = true → Spells m (f.render d) f.tokens
  | .nullTest c isNull, _ => (leads_nullTest hm c isNull).toSpells
  | .compare left op right, _ => (leads_comparison hm left op right).toSpells
  | .compound op [], _ => by
    rw [Fragment.render, Fragment.tokens]
    rfl
  | .compound op (f :: fs), h => by
    rw [Fragment.isRawFree, Fragment.areRawFree, Bool.and_eq_true] at h
    have hf := spells_fragment hm f h.1
    have hrest := spells_rest hm op fs h.2
    have := hf.append (nameMarks_of_marks? hm).delimits_closing hrest (delimited_renderRest op fs)
    simpa [Fragment.render, Fragment.tokens, String.append_assoc] using (leads_parenthesized hm this).toSpells
  | .not f, h => by
    have hn : Leads m "NOT (" [.word "NOT", .symbol "("] := rfl
    have hend : Breaks m ")" [.symbol ")"] := ⟨rfl, by decide, by decide⟩
    have := (hn.spells (spells_fragment hm f h)).leads (nameMarks_of_marks? hm).delimits_closing hend
    simpa [Fragment.render, Fragment.tokens, parenthesized] using this.toSpells

theorem spells_rest (hm : d.marks? = some m) (op : LogicalOp) : ∀ fs : List Fragment, Fragment.areRawFree fs = true →
    Spells m (Fragment.renderRest d op fs) (Fragment.tokensRest op fs)
  | [], _ => rfl
  | f :: fs, h => by
    rw [Fragment.areRawFree, Bool.and_eq_true] at h
    have hf := (breaks_keyword op).leads.spells (spells_fragment hm f h.1)
    have := hf.append (nameMarks_of_marks? hm).delimits_closing (spells_rest hm op fs h.2) (delimited_renderRest op fs)
    simpa [Fragment.renderRest, Fragment.tokensRest, String.append_assoc] using this

end

/-- Only raw text can be empty. -/
theorem render_eq_empty_iff {f : Fragment} : f.render d = "" ↔ f = .raw "" := by
  constructor
  · intro h
    cases f with
    | compound op fs => cases fs <;> simp [Fragment.render, String.append_eq_empty_iff] at h
    | raw sql =>
      rw [Fragment.render] at h
      rw [h]
    | _ => simp [Fragment.render, String.append_eq_empty_iff] at h
  · rintro rfl
    rfl

theorem render_ne_empty {f : Fragment} (h : f.isRawFree = true) : f.render d ≠ "" := by
  intro he
  rw [render_eq_empty_iff] at he
  rw [he] at h
  cases h

end SqlDraft
