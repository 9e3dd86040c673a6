/-
  SqlDraft.Proofs.Boolean.Combined — what conditions joined by AND and OR mean. A combination is
  a compound in any case: to the members that the left side has under the operator, itself
  if it is no such compound, the right side is added (`combine_eq`). So its value is that of
  the two sides joined (`value_combine`), and a chain has the value of its members joined from
  left to right (`value_chain`).

  There is one exception. Without members a compound is true under either operator, but a
  disjunction that takes one in is as true as that member: of its own value nothing is left
  (`GivesWay`). In a chain this befalls the first member at most, for what has been combined
  has members.

  `combined_toSql` says this of the texts and what they read as.
-/

import SqlDraft.Proofs.Boolean.Row

namespace SqlDraft

open Sql Boolean

variable {r : Registry} {d : Dialect} {scope : Scope} {qualified : Bool}

namespace Condition

variable {op : LogicalOp} {a b c first : Condition} {cs : List Condition} {others : Row Condition}

/-- What a condition is a compound of under `op`. -/
def members (op : LogicalOp) : Condition → List Condition
  | .compound existing parts => if existing = op then parts else [.compound existing parts]
  | c => [c]

theorem combine_eq (op : LogicalOp) (a b : Condition) : combine op a b = .compound op (members op a ++ [b]) := by
  cases a with
  | compound existing parts =>
    simp only [combine, members]
    split <;> rfl
  | _ => rfl

/-- A disjunction of nothing, to which OR joins something. -/
def GivesWay (op : LogicalOp) (a : Condition) : Prop := op = .or ∧ a = .compound .or []

theorem members_eq_nil_iff : members op a = [] ↔ a = .compound op [] := by
  cases a with
  | compound existing parts =>
    simp only [members]
    split
    · rename_i hop
      simp [hop]
    · rename_i hop
      simp [hop]
  | _ => simp [members]

/-- What has been combined has members. -/
theorem not_givesWay_combine (op op' : LogicalOp) (a b : Condition) : ¬ GivesWay op' (combine op a b) := by
  rintro ⟨-, h⟩
  rw [combine_eq] at h
  simp at h

/-! ## Values -/

variable (v : Condition → Bool)

theorem fold_concat (op : LogicalOp) (x : Bool) (cs : List Condition) (c : Condition) :
    op.fold v x (cs ++ [c]) = op.apply (op.fold v x cs) (c.value v) := by
  induction cs generalizing x with
  | nil => cases op <;> simp [LogicalOp.fold, allTrue, anyTrue, LogicalOp.apply]
  | cons first cs ih => rw [List.cons_append, fold_cons, ih, fold_cons v op x first cs]

/-- One more member of a compound that has some. -/
theorem value_concat (op : LogicalOp) (hne : cs ≠ []) (c : Condition) :
    (compound op (cs ++ [c])).value v = op.apply ((compound op cs).value v) (c.value v) := by
  cases cs with
  | nil => exact absurd rfl hne
  | cons first cs => rw [List.cons_append, value_compound, fold_concat, value_compound]

theorem value_singleton (op : LogicalOp) (c : Condition) : (compound op [c]).value v = c.value v := by
  cases op <;> simp [value, allTrue, anyTrue]

theorem value_members (op : LogicalOp) (a : Condition) : (compound op (members op a)).value v = a.value v := by
  cases a with
  | compound existing parts =>
    simp only [members]
    split
    · rename_i hop
      rw [hop]
    · exact value_singleton v op _
  | _ => exact value_singleton v op _

theorem value_combine (h : ¬ GivesWay op a) : (combine op a b).value v = op.apply (a.value v) (b.value v) := by
  rw [combine_eq]
  by_cases hnil : members op a = []
  · -- A compound of nothing, and if it is a conjunction, then no harm is done.
    rw [hnil, List.nil_append, value_singleton]
    obtain rfl := members_eq_nil_iff.mp hnil
    cases op with
    | and => rfl
    | or => exact absurd ⟨rfl, rfl⟩ h
  · rw [value_concat v op hnil, value_members]

theorem value_combine_of_givesWay (h : GivesWay op a) : (combine op a b).value v = b.value v := by
  obtain ⟨rfl, rfl⟩ := h
  exact value_singleton v .or b

theorem value_chain (h : ∀ t ∈ others.head?, ¬ GivesWay t.1 first) :
    (chain first others).value v = Row.extend (·.value v) (first.value v) others := by
  induction others generalizing first with
  | nil => rfl
  | cons t rest ih =>
    have hrest : (chain (combine t.1 first t.2) rest).value v = _ :=
      ih fun u _ => not_givesWay_combine t.1 u.1 first t.2
    rw [value_combine v (h t rfl)] at hrest
    exact hrest

/-- A first member that gives way leaves the others as they would be without it. -/
theorem value_chain_of_givesWay {t : LogicalOp × Condition} (h : GivesWay t.1 first) (rest : Row Condition) :
    (chain first (t :: rest)).value v = Row.inCallOrder (·.value v) (t :: rest) := by
  have hrest : (chain (combine t.1 first t.2) rest).value v = _ :=
    value_chain v fun u _ => not_givesWay_combine t.1 u.1 first t.2
  rw [value_combine_of_givesWay v h] at hrest
  exact hrest

/-! ## Resolving -/

theorem exists_resolve_members (op : LogicalOp) {f : Fragment} (h : a.resolve r scope qualified = .ok f) :
    ∃ fs, resolveAll r scope qualified (members op a) = .ok fs := by
  have hsingle : resolveAll r scope qualified [a] = .ok [f] := by
    simp [resolveAll, h, bind, Except.bind, pure, Except.pure]
  cases a with
  | compound existing parts =>
    simp only [members]
    split
    · rw [resolve] at h
      obtain ⟨fs, hfs, -⟩ := Except.map_eq_ok.mp h
      exact ⟨fs, hfs⟩
    · exact ⟨_, hsingle⟩
  | _ => exact ⟨_, hsingle⟩

theorem resolveAll_concat {fs : List Fragment} {f : Fragment} (hcs : resolveAll r scope qualified cs = .ok fs)
    (hc : c.resolve r scope qualified = .ok f) : resolveAll r scope qualified (cs ++ [c]) = .ok (fs ++ [f]) := by
  induction cs generalizing fs with
  | nil =>
    cases hcs
    simp [resolveAll, hc, bind, Except.bind, pure, Except.pure]
  | cons first cs ih =>
    obtain ⟨g, gs, hg, hgs, rfl⟩ := resolveAll_cons hcs
    simp [resolveAll, hg, ih hgs, bind, Except.bind, pure, Except.pure]

theorem exists_resolve_combine (op : LogicalOp) (ha : ∃ f, a.resolve r scope qualified = .ok f)
    (hb : ∃ f, b.resolve r scope qualified = .ok f) : ∃ f, (combine op a b).resolve r scope qualified = .ok f := by
  obtain ⟨f, hf⟩ := ha
  obtain ⟨g, hg⟩ := hb
  obtain ⟨fs, hfs⟩ := exists_resolve_members op hf
  rw [combine_eq, resolve, resolveAll_concat hfs hg]
  exact ⟨_, rfl⟩

theorem areRawFree_append (cs ds : List Condition) : areRawFree (cs ++ ds) = (areRawFree cs && areRawFree ds) := by
  induction cs with
  | nil => rfl
  | cons c cs ih => rw [List.cons_append, areRawFree, ih, areRawFree, Bool.and_assoc]

theorem areRawFree_members (op : LogicalOp) (a : Condition) : areRawFree (members op a) = a.isRawFree := by
  cases a with
  | compound existing parts =>
    simp only [members]
    split
    · rfl
    · simp [areRawFree]
  | _ => simp [members, areRawFree]

theorem isRawFree_combine (op : LogicalOp) (a b : Condition) :
    (combine op a b).isRawFree = (a.isRawFree && b.isRawFree) := by
  rw [combine_eq, isRawFree, areRawFree_append, areRawFree_members, areRawFree, areRawFree, Bool.and_true]

/-! ## Readings -/

/-- Free of raw text and not refused. -/
structure Spelled (r : Registry) (d : Dialect) (scope : Scope) (qualified : Bool) (c : Condition) : Prop where
  isRawFree : c.isRawFree = true
  exists_toSql : ∃ sql, (Predicate.mk scope c).toSql r d qualified = .ok sql

/-- The text of a condition has one reading, which is `φ`. -/
def ReadsAs (r : Registry) (d : Dialect) (scope : Scope) (qualified : Bool) (c : Condition) (φ : Formula) : Prop :=
  ∃ m sql ts, d.marks? = some m ∧ (Predicate.mk scope c).toSql r d qualified = .ok sql ∧ Sql.lex m sql = some ts ∧
    Reads .disjunction ts φ ∧ ∀ ψ, Reads .disjunction ts ψ → ψ = φ

theorem toSql_of_resolve {f : Fragment} (h : c.resolve r scope qualified = .ok f) :
    (Predicate.mk scope c).toSql r d qualified = .ok (f.render d) := by
  rw [Predicate.toSql, Predicate.resolve, h]
  rfl

theorem Spelled.exists_resolve (h : c.Spelled r d scope qualified) : ∃ f, c.resolve r scope qualified = .ok f := by
  obtain ⟨sql, hsql⟩ := h.exists_toSql
  obtain ⟨f, hf, -⟩ := Except.map_eq_ok.mp hsql
  exact ⟨f, Predicate.resolve_eq_ok hf⟩

theorem Spelled.combine (ha : a.Spelled r d scope qualified) (hb : b.Spelled r d scope qualified) (op : LogicalOp) :
    (a.combine op b).Spelled r d scope qualified := by
  obtain ⟨f, hf⟩ := exists_resolve_combine op ha.exists_resolve hb.exists_resolve
  exact ⟨by rw [isRawFree_combine, ha.isRawFree, hb.isRawFree, Bool.and_self], _, toSql_of_resolve hf⟩

theorem Spelled.chain (hfirst : first.Spelled r d scope qualified)
    (hothers : ∀ t ∈ others, t.2.Spelled r d scope qualified) : (first.chain others).Spelled r d scope qualified := by
  induction others generalizing first with
  | nil => exact hfirst
  | cons t rest ih =>
    exact ih (hfirst.combine (hothers t List.mem_cons_self) t.1) fun u hu => hothers u (List.mem_cons_of_mem t hu)

/-- The reading of a condition whose columns are found. -/
def formula (r : Registry) (scope : Scope) (qualified : Bool) (c : Condition) : Formula :=
  (c.resolve r scope qualified).toOption.elim (.constant true) Fragment.formula

theorem Spelled.readsAs {m : Text.Marks} (hm : d.marks? = some m) (h : c.Spelled r d scope qualified) :
    c.ReadsAs r d scope qualified (c.formula r scope qualified) := by
  obtain ⟨f, hf⟩ := h.exists_resolve
  have hfree : f.isRawFree = true := by rw [isRawFree_resolve hf, h.isRawFree]
  have hreads : Reads .disjunction f.tokens f.formula :=
    .conjunction (.factor (reads_fragment f hfree (isWellFormed_resolve hf)))
  have hformula : c.formula r scope qualified = f.formula := by rw [formula, hf]; rfl
  rw [hformula]
  exact ⟨m, f.render d, f.tokens, hm, toSql_of_resolve hf, spells_fragment hm f hfree, hreads, fun ψ hψ =>
    hψ.unique hreads⟩

/-- The reading has the value of the condition. -/
theorem Spelled.value_formula (h : c.Spelled r d scope qualified) (v : List Token → Bool) :
    (c.formula r scope qualified).value v = c.value fun leaf => v (leaf.comparison r scope qualified) := by
  obtain ⟨f, hf⟩ := h.exists_resolve
  rw [formula, hf]
  exact value_resolve v h.isRawFree hf

theorem extend_congr {α : Type} {v w : α → Bool} {row : Row α} (h : ∀ t ∈ row, v t.2 = w t.2) (x : Bool) :
    Row.extend v x row = Row.extend w x row := by
  unfold Row.extend
  exact List.foldl_ext _ _ x fun y t ht => by rw [h t ht]

end Condition

open Condition

/-- Joined by `op`, two conditions have a text whose value is that of the text of the one joined
    to that of the other, whichever comparisons are true; and a chain of any length has the value
    of its members' texts, joined from left to right. A disjunction of nothing that OR joins to
    something is left out of both. -/
theorem combined_toSql {m : Text.Marks} (hm : d.marks? = some m) :
    (∀ op a b, a.Spelled r d scope qualified → b.Spelled r d scope qualified → ∃ φ ψ χ,
      a.ReadsAs r d scope qualified φ ∧ b.ReadsAs r d scope qualified ψ ∧
        (a.combine op b).ReadsAs r d scope qualified χ ∧
        (¬ GivesWay op a → ∀ v, χ.value v = op.apply (φ.value v) (ψ.value v)) ∧
        (GivesWay op a → ∀ v, χ.value v = ψ.value v)) ∧
      ∀ first (others : Row Condition), first.Spelled r d scope qualified →
        (∀ t ∈ others, t.2.Spelled r d scope qualified) → ∃ (reading : Condition → Formula) (χ : Formula),
          first.ReadsAs r d scope qualified (reading first) ∧
          (∀ t ∈ others, t.2.ReadsAs r d scope qualified (reading t.2)) ∧
          (first.chain others).ReadsAs r d scope qualified χ ∧
          ((∀ t ∈ others.head?, ¬ GivesWay t.1 first) →
            ∀ v, χ.value v = Row.extend (fun c => (reading c).value v) ((reading first).value v) others) ∧
          ((∃ t ∈ others.head?, GivesWay t.1 first) →
            ∀ v, χ.value v = Row.inCallOrder (fun c => (reading c).value v) others) := by
  constructor
  · intro op a b ha hb
    have hab := ha.combine hb op
    refine ⟨_, _, _, ha.readsAs hm, hb.readsAs hm, hab.readsAs hm, fun h v => ?_, fun h v => ?_⟩
    · rw [hab.value_formula, ha.value_formula, hb.value_formula, value_combine _ h]
    · rw [hab.value_formula, hb.value_formula, value_combine_of_givesWay _ h]
  · intro first others hfirst hothers
    have hchain := hfirst.chain hothers
    refine ⟨formula r scope qualified, _, hfirst.readsAs hm, fun t ht => (hothers t ht).readsAs hm, hchain.readsAs hm,
      fun h v => ?_, fun h v => ?_⟩
    · rw [hchain.value_formula, hfirst.value_formula, value_chain _ h]
      exact extend_congr (fun t ht => ((hothers t ht).value_formula v).symm) _
    · cases others with
      | nil => simp at h
      | cons t rest =>
        obtain ⟨u, hu, hgives⟩ := h
        cases hu
        rw [hchain.value_formula, value_chain_of_givesWay _ hgives, Row.inCallOrder, Row.inCallOrder,
          (hothers t List.mem_cons_self).value_formula v]
        exact extend_congr (fun u hu => ((hothers u (List.mem_cons_of_mem t hu)).value_formula v).symm) _

/-- On the right a compound of nothing is a member as any other: `"a" IS NULL OR TRUE`. -/
theorem combined_toSql_or :
    let r : Registry := ⟨[⟨⟨"T"⟩, "T", [{ name := "a" }]⟩]⟩
    let a : Condition := .compound .or [.isNull ⟨⟨"T"⟩, "a"⟩]
    let b : Condition := .compound .or []
    ∃ φ ψ χ, a.ReadsAs r .sqlite (.single ⟨"T"⟩) false φ ∧ b.ReadsAs r .sqlite (.single ⟨"T"⟩) false ψ ∧
      (a.or b).ReadsAs r .sqlite (.single ⟨"T"⟩) false χ ∧ ∀ v, χ.value v = (φ.value v || ψ.value v) := by
  intro r a b
  have ha : a.Spelled r .sqlite (.single ⟨"T"⟩) false := ⟨rfl, _, rfl⟩
  have hb : b.Spelled r .sqlite (.single ⟨"T"⟩) false := ⟨rfl, _, rfl⟩
  obtain ⟨φ, ψ, χ, ha, hb, hab, hvalue, -⟩ := (combined_toSql (m := ⟨'"', '"'⟩) rfl).1 .or a b ha hb
  exact ⟨φ, ψ, χ, ha, hb, hab, hvalue fun h => by simp [GivesWay, a] at h⟩

/-- On the left it is lost: `TRUE` joined to `"a" IS NULL` by OR is `"a" IS NULL`. -/
theorem disjunction_gives_way :
    let r : Registry := ⟨[⟨⟨"T"⟩, "T", [{ name := "a" }]⟩]⟩
    let a : Condition := .compound .or []
    let b : Condition := .isNull ⟨⟨"T"⟩, "a"⟩
    a.Spelled r .sqlite (.single ⟨"T"⟩) false ∧ b.Spelled r .sqlite (.single ⟨"T"⟩) false ∧
      ∃ φ ψ χ, a.ReadsAs r .sqlite (.single ⟨"T"⟩) false φ ∧ b.ReadsAs r .sqlite (.single ⟨"T"⟩) false ψ ∧
        (a.or b).ReadsAs r .sqlite (.single ⟨"T"⟩) false χ ∧ ∃ v, χ.value v ≠ (φ.value v || ψ.value v) := by
  intro r a b
  have ha : a.Spelled r .sqlite (.single ⟨"T"⟩) false := ⟨rfl, _, rfl⟩
  have hb : b.Spelled r .sqlite (.single ⟨"T"⟩) false := ⟨rfl, _, rfl⟩
  refine ⟨ha, hb, _, _, _, ha.readsAs rfl, hb.readsAs rfl, (ha.combine hb .or).readsAs rfl, fun _ => false, ?_⟩
  decide

end SqlDraft
