/-
  SqlDraft.Proofs.Condition.Resolved — what resolving a condition keeps. It brings in no raw
  text (`isRawFree_resolve`). Every comparison it makes has a list on its right exactly where
  its operator takes one, and not an empty one (`isWellFormed_resolve`). Its columns are
  those of fields of models in scope, qualified or not as was asked (`columns_resolve`).
-/

import SqlDraft.Proofs.Success
import SqlDraft.Resolution

namespace SqlDraft

/-! ## Raw text -/

namespace Condition

mutual

/-- Without raw text. -/
def isRawFree : Condition → Bool
  | .compare .. => true
  | .compound _ cs => areRawFree cs
  | .not c => c.isRawFree
  | .raw _ => false

def areRawFree : List Condition → Bool
  | [] => true
  | c :: cs => c.isRawFree && areRawFree cs

end

end Condition

namespace Fragment

mutual

/-- Without raw text. -/
def isRawFree : Fragment → Bool
  | .nullTest .. | .compare .. => true
  | .compound _ fs => areRawFree fs
  | .not f => f.isRawFree
  | .raw _ => false

def areRawFree : List Fragment → Bool
  | [] => true
  | f :: fs => f.isRawFree && areRawFree fs

end

/-- The right side is what the operator compares with. -/
def suits (op : ComparisonOp) : Term → Bool
  | .list vs => op.takesList && !vs.isEmpty
  | .column _ | .value _ => !op.takesList

mutual

/-- Every comparison has a right side that suits its operator. -/
def isWellFormed : Fragment → Bool
  | .nullTest .. | .raw _ => true
  | .compare _ op right => suits op right
  | .compound _ fs => areWellFormed fs
  | .not f => f.isWellFormed

def areWellFormed : List Fragment → Bool
  | [] => true
  | f :: fs => f.isWellFormed && areWellFormed fs

end

mutual

/-- The columns that are compared, from left to right. -/
def columns : Fragment → List ColumnName
  | .nullTest c _ => [c]
  | .compare left _ (.column right) => [left, right]
  | .compare left .. => [left]
  | .compound _ fs => columnsOf fs
  | .not f => f.columns
  | .raw _ => []

def columnsOf : List Fragment → List ColumnName
  | [] => []
  | f :: fs => f.columns ++ columnsOf fs

end

end Fragment

/-! ## A comparison -/

variable {r : Registry} {scope : Scope} {qualified : Bool}

/-- A comparison becomes a test for NULL or a comparison with a right side that suits it. -/
theorem resolveRight_cases {field : String} {left : ColumnName} {op : ComparisonOp} {right : Operand} {f : Fragment}
    (h : Condition.resolveRight r scope qualified field left op right = .ok f) :
    (∃ isNull, f = .nullTest left isNull) ∨
      ∃ term, f = .compare left op term ∧ Fragment.suits op term = true ∧
        ∀ name, term = .column name → ∃ c : ColumnRef, c.resolve r scope qualified = .ok name := by
  cases right with
  | null => cases op <;> cases h <;> exact .inl ⟨_, rfl⟩
  | list vs =>
    simp only [Condition.resolveRight] at h
    split at h
    · rename_i ht
      split at h
      · cases h
      · rename_i hv
        cases h
        exact .inr ⟨_, rfl, by simpa [Fragment.suits, ht] using hv, fun name e => by cases e⟩
    · cases h
  | column c =>
    simp only [Condition.resolveRight] at h
    split at h
    · cases h
    · rename_i ht
      obtain ⟨name, hc, rfl⟩ := Except.map_eq_ok.mp h
      exact .inr ⟨_, rfl, by simpa [Fragment.suits] using ht, fun _ e => ⟨c, by cases e; exact hc⟩⟩
  | value v =>
    simp only [Condition.resolveRight] at h
    split at h
    · cases h
    · rename_i ht
      cases h
      exact .inr ⟨_, rfl, by simpa [Fragment.suits] using ht, fun name e => by cases e⟩

theorem resolve_compare_cases {left : ColumnRef} {op : ComparisonOp} {right : Operand} {f : Fragment}
    (h : (Condition.compare left op right).resolve r scope qualified = .ok f) :
    (∃ column isNull, f = .nullTest column isNull) ∨
      ∃ column term, f = .compare column op term ∧ Fragment.suits op term = true := by
  rw [Condition.resolve] at h
  obtain ⟨column, -, h⟩ := Except.bind_eq_ok.mp h
  rcases resolveRight_cases h with ⟨isNull, rfl⟩ | ⟨term, rfl, ht, -⟩
  · exact .inl ⟨column, isNull, rfl⟩
  · exact .inr ⟨column, term, rfl, ht⟩

/-! ## A whole condition -/

theorem resolveAll_cons {c : Condition} {cs : List Condition} {fs : List Fragment}
    (h : Condition.resolveAll r scope qualified (c :: cs) = .ok fs) :
    ∃ f gs, c.resolve r scope qualified = .ok f ∧ Condition.resolveAll r scope qualified cs = .ok gs ∧ fs = f :: gs := by
  rw [Condition.resolveAll] at h
  obtain ⟨f, hf, h⟩ := Except.bind_eq_ok.mp h
  obtain ⟨gs, hgs, h⟩ := Except.bind_eq_ok.mp h
  cases h
  exact ⟨f, gs, hf, hgs, rfl⟩

/-- `P` relates every comparison to what it is resolved to and, with `Q` for lists, passes
    from the parts to the whole. -/
structure Respects (r : Registry) (scope : Scope) (qualified : Bool) (P : Condition → Fragment → Prop)
    (Q : List Condition → List Fragment → Prop) : Prop where
  comparison : ∀ left op right f, (Condition.compare left op right).resolve r scope qualified = .ok f →
    P (.compare left op right) f
  compound : ∀ op cs fs, Q cs fs → P (.compound op cs) (.compound op fs)
  not : ∀ c f, P c f → P (.not c) (.not f)
  raw : ∀ sql, P (.raw sql) (.raw sql)
  nil : Q [] []
  cons : ∀ c cs f fs, P c f → Q cs fs → Q (c :: cs) (f :: fs)

variable {P : Condition → Fragment → Prop} {Q : List Condition → List Fragment → Prop}

mutual

theorem Respects.resolve (h : Respects r scope qualified P Q) : ∀ (c : Condition) {f : Fragment},
    c.resolve r scope qualified = .ok f → P c f
  | .compare left op right, f, hf => h.comparison left op right f hf
  | .compound op cs, f, hf => by
    rw [Condition.resolve] at hf
    obtain ⟨fs, hfs, rfl⟩ := Except.map_eq_ok.mp hf
    exact h.compound op cs fs (h.resolveAll cs hfs)
  | .not c, f, hf => by
    rw [Condition.resolve] at hf
    obtain ⟨g, hg, rfl⟩ := Except.map_eq_ok.mp hf
    exact h.not c g (h.resolve c hg)
  | .raw sql, f, hf => by
    rw [Condition.resolve] at hf
    cases hf
    exact h.raw sql

theorem Respects.resolveAll (h : Respects r scope qualified P Q) : ∀ (cs : List Condition) {fs : List Fragment},
    Condition.resolveAll r scope qualified cs = .ok fs → Q cs fs
  | [], fs, hfs => by
    rw [Condition.resolveAll] at hfs
    cases hfs
    exact h.nil
  | c :: cs, fs, hfs => by
    obtain ⟨f, gs, hf, hgs, rfl⟩ := resolveAll_cons hfs
    exact h.cons c cs f gs (h.resolve c hf) (h.resolveAll cs hgs)

end

theorem respects_isRawFree : Respects r scope qualified (fun c f => f.isRawFree = c.isRawFree)
    (fun cs fs => Fragment.areRawFree fs = Condition.areRawFree cs) where
  comparison left op right f h := by
    rcases resolve_compare_cases h with ⟨column, isNull, rfl⟩ | ⟨column, term, rfl, -⟩ <;> rfl
  compound _ _ _ h := h
  not _ _ h := h
  raw _ := rfl
  nil := rfl
  cons c cs f fs hf hfs := by rw [Fragment.areRawFree, Condition.areRawFree, hf, hfs]

theorem isRawFree_resolve {c : Condition} {f : Fragment} (h : c.resolve r scope qualified = .ok f) :
    f.isRawFree = c.isRawFree := respects_isRawFree.resolve c h

theorem respects_isWellFormed : Respects r scope qualified (fun _ f => f.isWellFormed = true)
    (fun _ fs => Fragment.areWellFormed fs = true) where
  comparison left op right f h := by
    rcases resolve_compare_cases h with ⟨column, isNull, rfl⟩ | ⟨column, term, rfl, ht⟩
    · rfl
    · exact ht
  compound _ _ _ h := h
  not _ _ h := h
  raw _ := rfl
  nil := rfl
  cons c cs f fs hf hfs := by rw [Fragment.areWellFormed, hf, hfs, Bool.and_self]

theorem isWellFormed_resolve {c : Condition} {f : Fragment} (h : c.resolve r scope qualified = .ok f) :
    f.isWellFormed = true := respects_isWellFormed.resolve c h

/-- Raw text comes from the same raw text alone. -/
theorem resolve_eq_raw_iff {c : Condition} {f : Fragment} {sql : String} (h : c.resolve r scope qualified = .ok f) :
    f = .raw sql ↔ c = .raw sql := by
  cases c with
  | compare left op right => rcases resolve_compare_cases h with ⟨column, isNull, rfl⟩ | ⟨column, term, rfl, -⟩ <;> simp
  | compound op cs =>
    rw [Condition.resolve] at h
    obtain ⟨fs, -, rfl⟩ := Except.map_eq_ok.mp h
    simp
  | not c =>
    rw [Condition.resolve] at h
    obtain ⟨g, -, rfl⟩ := Except.map_eq_ok.mp h
    simp
  | raw text =>
    rw [Condition.resolve] at h
    cases h
    simp

/-! ## Columns -/

/-- The column of a field of a registered model in scope. -/
def IsColumn (r : Registry) (scope : Scope) (qualified : Bool) (c : ColumnName) : Prop :=
  ∃ m f, r.model? m.type = some m ∧ scope.admits m.type = true ∧ f ∈ m.fields ∧ c = m.columnName qualified f

theorem isColumn_resolve {c : ColumnRef} {name : ColumnName} (h : c.resolve r scope qualified = .ok name) :
    IsColumn r scope qualified name := by
  unfold ColumnRef.resolve at h
  split at h
  · rename_i hs
    split at h
    · cases h
    · rename_i m hm
      split at h
      · cases h
      · rename_i f hf
        cases h
        have ht : m.type = c.model := Registry.type_of_model? hm
        exact ⟨m, f, by rwa [ht], by rwa [ht], List.mem_of_find?_eq_some hf, rfl⟩
  · cases h

theorem columns_resolveRight {field : String} {left : ColumnName} {op : ComparisonOp} {right : Operand} {f : Fragment}
    (hl : IsColumn r scope qualified left)
    (h : Condition.resolveRight r scope qualified field left op right = .ok f) :
    ∀ name ∈ f.columns, IsColumn r scope qualified name := by
  intro name hn
  rcases resolveRight_cases h with ⟨isNull, rfl⟩ | ⟨term, rfl, -, hterm⟩
  · rw [List.mem_singleton.mp hn]
    exact hl
  · cases term with
    | column right =>
      rcases List.mem_cons.mp hn with rfl | hn
      · exact hl
      · obtain ⟨c, hc⟩ := hterm right rfl
        rw [List.mem_singleton.mp hn]
        exact isColumn_resolve hc
    | _ =>
      rw [List.mem_singleton.mp hn]
      exact hl

theorem respects_columns : Respects r scope qualified (fun _ f => ∀ name ∈ f.columns, IsColumn r scope qualified name)
    (fun _ fs => ∀ name ∈ Fragment.columnsOf fs, IsColumn r scope qualified name) where
  comparison left op right f h := by
    rw [Condition.resolve] at h
    obtain ⟨column, hc, h⟩ := Except.bind_eq_ok.mp h
    exact columns_resolveRight (isColumn_resolve hc) h
  compound _ _ _ h := h
  not _ _ h := h
  raw sql name hn := by cases hn
  nil name hn := by cases hn
  cons c cs f fs hf hfs := by
    intro name hn
    rcases List.mem_append.mp hn with hn | hn
    · exact hf name hn
    · exact hfs name hn

theorem columns_resolve {c : Condition} {f : Fragment} (h : c.resolve r scope qualified = .ok f) :
    ∀ name ∈ f.columns, IsColumn r scope qualified name := respects_columns.resolve c h

theorem Predicate.resolve_eq_ok {p : Predicate} {f : Fragment} (h : p.resolve r qualified = .ok f) :
    p.condition.resolve r p.scope qualified = .ok f := by
  unfold Predicate.resolve at h
  exact Except.mapError_eq_ok.mp h

end SqlDraft
