/-
  SqlDraft.Proofs.Boolean.Row — operands in a row, each tied to those before it by AND or OR
  and none of them grouped with another.

  AND binds tighter, so SQL reads a row as a disjunction: each OR starts a new run, and the
  operands of a run are all to be true (`runs`, `reads_row`). Taken one after the other in
  the order they came, the operands have the same value whatever they are just if no AND
  comes after an OR (`agrees_iff`). Otherwise there is an assignment that tells the two
  apart: the first run is true, and nothing else is.
-/

import Mathlib.Data.List.SplitBy
import SqlDraft.Proofs.Boolean.Meaning

namespace SqlDraft

/-- What the operator makes of two values. -/
def LogicalOp.apply : LogicalOp → Bool → Bool → Bool
  | .and, a, b => a && b
  | .or, a, b => a || b

namespace Boolean

open Sql

/-! ## Conjunctions and disjunctions of any length -/

def Formula.all : List Formula → Formula
  | [] => .constant true
  | φ :: φs => φs.foldl .and φ

def Formula.any : List Formula → Formula
  | [] => .constant false
  | φ :: φs => φs.foldl .or φ

theorem value_foldl_and (w : List Token → Bool) (φ : Formula) (φs : List Formula) :
    (φs.foldl Formula.and φ).value w = (φ.value w && φs.all (·.value w)) := by
  induction φs generalizing φ with
  | nil => simp
  | cons ψ φs ih => simp [ih, Formula.value, Bool.and_assoc]

theorem value_foldl_or (w : List Token → Bool) (φ : Formula) (φs : List Formula) :
    (φs.foldl Formula.or φ).value w = (φ.value w || φs.any (·.value w)) := by
  induction φs generalizing φ with
  | nil => simp
  | cons ψ φs ih => simp [ih, Formula.value, Bool.or_assoc]

theorem value_all (w : List Token → Bool) (φs : List Formula) : (Formula.all φs).value w = φs.all (·.value w) := by
  cases φs with
  | nil => rfl
  | cons φ φs => exact value_foldl_and w φ φs

theorem value_any (w : List Token → Bool) (φs : List Formula) : (Formula.any φs).value w = φs.any (·.value w) := by
  cases φs with
  | nil => rfl
  | cons φ φs => exact value_foldl_or w φ φs

/-! ## Rows -/

/-- Operands, each with the operator before it. That of the first ties nothing. -/
abbrev Row (α : Type) := List (LogicalOp × α)

variable {α : Type}

namespace Row

/-- The row in the longest parts that AND ties together. -/
def stretches (row : Row α) : List (Row α) := row.splitBy fun _ b => b.1 = .and

/-- The operands of each stretch. -/
def runs (row : Row α) : List (List α) := (stretches row).map (·.map (·.2))

/-- Some run is true throughout. -/
def byPrecedence (v : α → Bool) (row : Row α) : Bool := (runs row).any (·.all v)

/-- Joins one operand after the other to the value `b`. -/
def extend (v : α → Bool) (b : Bool) (row : Row α) : Bool :=
  row.foldl (fun b u => u.1.apply b (v u.2)) b

def inCallOrder (v : α → Bool) : Row α → Bool
  | [] => false
  | t :: ts => extend v (v t.2) ts

/-- No AND comes after an OR. -/
def AndsFirst (row : Row α) : Prop := (row.tail.map (·.1)).Pairwise fun a b => ¬ (a = .or ∧ b = .and)

instance (row : Row α) : Decidable (AndsFirst row) :=
  inferInstanceAs (Decidable ((row.tail.map (·.1)).Pairwise fun a b => ¬ (a = .or ∧ b = .and)))

/-- An operand after its operator. -/
def tied (tokens : α → List Token) (u : LogicalOp × α) : List Token := u.1.token :: tokens u.2

def tokens (operand : α → List Token) : Row α → List Token
  | [] => []
  | t :: ts => operand t.2 ++ ts.flatMap (tied operand)

/-- A stretch that is not the first. -/
def IsLater (stretch : Row α) : Prop := ∃ u us, stretch = u :: us ∧ u.1 = .or ∧ ∀ w ∈ us, w.1 = .and

theorem tokens_map {β : Type} (operand : β → List Token) (f : α → β) (row : Row α) :
    tokens operand (row.map fun t => (t.1, f t.2)) = tokens (fun a => operand (f a)) row := by
  cases row with
  | nil => rfl
  | cons t ts =>
    simp only [List.map_cons, tokens, List.flatMap_map]
    rfl

end Row

open Row

/-! ## Stretches -/

theorem forall_of_isChain {β : Type} {R : β → β → Prop} {P : β → Prop} (hR : ∀ a b, R a b → P b) {a : β} {l : List β}
    (h : (a :: l).IsChain R) : ∀ b ∈ l, P b := by
  induction l generalizing a with
  | nil => simp
  | cons b l ih =>
    rw [List.isChain_cons_cons] at h
    intro c hc
    rcases List.mem_cons.mp hc with rfl | hc
    · exact hR a c h.1
    · exact ih h.2 c hc

theorem flatten_stretches (row : Row α) : (stretches row).flatten = row := List.flatten_splitBy _ row

theorem and_of_mem_stretches {row : Row α} {u : LogicalOp × α} {us : Row α} (h : u :: us ∈ stretches row) :
    ∀ w ∈ us, w.1 = .and :=
  forall_of_isChain (fun a b hab => by simpa using hab) (List.isChain_of_mem_splitBy h)

/-- A row has a first stretch, and each of the others starts with OR. -/
theorem exists_stretches {row : Row α} (h : row ≠ []) :
    ∃ t ts later, stretches row = (t :: ts) :: later ∧ row = t :: ts ++ later.flatten ∧ (∀ u ∈ ts, u.1 = .and) ∧
      ∀ stretch ∈ later, IsLater stretch := by
  have hflat := flatten_stretches row
  have hmem : ∀ stretch ∈ stretches row, ∃ u us, stretch = u :: us ∧ ∀ w ∈ us, w.1 = .and := by
    intro stretch hs
    cases stretch with
    | nil => exact absurd hs (List.nil_notMem_splitBy _ row)
    | cons u us => exact ⟨u, us, rfl, and_of_mem_stretches hs⟩
  have hchain := List.isChain_getLast_head_splitBy (fun _ b : LogicalOp × α => decide (b.1 = .and)) row
  change (stretches row).IsChain _ at hchain
  cases hs : stretches row with
  | nil =>
    rw [hs] at hflat
    exact absurd hflat.symm h
  | cons first later =>
    rw [hs] at hflat hmem hchain
    obtain ⟨t, ts, rfl, hts⟩ := hmem first List.mem_cons_self
    refine ⟨t, ts, later, rfl, hflat.symm, hts, ?_⟩
    intro stretch hl
    obtain ⟨u, us, rfl, hus⟩ := hmem stretch (List.mem_cons_of_mem _ hl)
    have hhead : ∃ hb : u :: us ≠ [], decide (((u :: us).head hb).1 = LogicalOp.and) = false :=
      forall_of_isChain (P := fun b : Row α => ∃ hb : b ≠ [], decide ((b.head hb).1 = LogicalOp.and) = false)
        (fun a b ⟨_, hb, h⟩ => ⟨hb, h⟩) hchain _ hl
    obtain ⟨_, hu⟩ := hhead
    refine ⟨u, us, rfl, ?_, hus⟩
    rw [List.head_cons, decide_eq_false_iff_not] at hu
    cases hop : u.1 with
    | and => exact absurd hop hu
    | or => rfl

/-! ## How a row reads -/

variable {operand : α → List Token} {φ : α → Formula}

theorem reads_extended (h : ∀ a, Reads .factor (operand a) (φ a)) (us : Row α) (hus : ∀ u ∈ us, u.1 = .and)
    {ts : List Token} {ψ : Formula} (hψ : Reads .conjunction ts ψ) :
    Reads .conjunction (ts ++ us.flatMap (tied operand)) ((us.map fun u => φ u.2).foldl .and ψ) := by
  induction us generalizing ts ψ with
  | nil => simpa using hψ
  | cons u us ih =>
    have hu : u.1.token = .word "AND" := by rw [hus u List.mem_cons_self]; rfl
    have := ih (fun w hw => hus w (List.mem_cons_of_mem u hw)) (hψ.and (h u.2))
    simpa [tied, hu] using this

/-- The operands of a stretch are one conjunction. -/
theorem reads_stretch (h : ∀ a, Reads .factor (operand a) (φ a)) (t : LogicalOp × α) (us : Row α)
    (hus : ∀ u ∈ us, u.1 = .and) :
    Reads .conjunction (operand t.2 ++ us.flatMap (tied operand)) (.all ((t :: us).map fun u => φ u.2)) :=
  reads_extended h us hus (.factor (h t.2))

theorem reads_later (h : ∀ a, Reads .factor (operand a) (φ a)) (later : List (Row α))
    (hl : ∀ stretch ∈ later, IsLater stretch) {ts : List Token} {ψ : Formula} (hψ : Reads .disjunction ts ψ) :
    Reads .disjunction (ts ++ later.flatten.flatMap (tied operand))
      ((later.map fun stretch => Formula.all (stretch.map fun u => φ u.2)).foldl .or ψ) := by
  induction later generalizing ts ψ with
  | nil => simpa using hψ
  | cons stretch later ih =>
    obtain ⟨u, us, rfl, hu, hus⟩ := hl stretch List.mem_cons_self
    have htoken : u.1.token = .word "OR" := by rw [hu]; rfl
    have := ih (fun s hs => hl s (List.mem_cons_of_mem _ hs)) (hψ.or (reads_stretch h u us hus))
    simpa [tied, htoken] using this

/-- A row reads as the disjunction of its runs. -/
theorem reads_row (h : ∀ a, Reads .factor (operand a) (φ a)) {row : Row α} (hne : row ≠ []) :
    Reads .disjunction (Row.tokens operand row) (.any ((runs row).map fun run => .all (run.map φ))) := by
  obtain ⟨t, ts, later, hs, hrow, hts, hl⟩ := exists_stretches hne
  have htokens : Row.tokens operand row =
      (operand t.2 ++ ts.flatMap (tied operand)) ++ later.flatten.flatMap (tied operand) := by
    rw [hrow]
    simp [Row.tokens]
  have hformula : (runs row).map (fun run => Formula.all (run.map φ)) =
      .all ((t :: ts).map fun u => φ u.2) :: later.map fun stretch => .all (stretch.map fun u => φ u.2) := by
    unfold runs
    rw [hs]
    simp [Function.comp_def]
  rw [htokens, hformula]
  exact reads_later h later hl (.conjunction (reads_stretch h t ts hts))

/-- The value of the reading, given those of the operands. -/
theorem value_runs (w : List Token → Bool) (row : Row α) :
    (Formula.any ((runs row).map fun run => .all (run.map φ))).value w = byPrecedence (fun a => (φ a).value w) row := by
  simp [value_any, value_all, byPrecedence, Function.comp_def]

/-! ## By precedence and in the order of the calls -/

variable {v : α → Bool}

theorem extend_append (b : Bool) (row row' : Row α) : extend v b (row ++ row') = extend v (extend v b row) row' :=
  List.foldl_append

theorem extend_and {us : Row α} (hus : ∀ u ∈ us, u.1 = .and) (b : Bool) :
    extend v b us = (b && us.all fun u => v u.2) := by
  induction us generalizing b with
  | nil => simp [extend]
  | cons u us ih =>
    have hu : u.1.apply b (v u.2) = (b && v u.2) := by rw [hus u List.mem_cons_self]; rfl
    have := ih (fun w hw => hus w (List.mem_cons_of_mem u hw)) (b && v u.2)
    simpa [extend, hu, Bool.and_assoc] using this

theorem extend_or {us : Row α} (hus : ∀ u ∈ us, u.1 = .or) (b : Bool) :
    extend v b us = (b || us.any fun u => v u.2) := by
  induction us generalizing b with
  | nil => simp [extend]
  | cons u us ih =>
    have hu : u.1.apply b (v u.2) = (b || v u.2) := by rw [hus u List.mem_cons_self]; rfl
    have := ih (fun w hw => hus w (List.mem_cons_of_mem u hw)) (b || v u.2)
    simpa [extend, hu, Bool.or_assoc] using this

/-- Operands that are false keep what is true only as long as OR joins them. -/
theorem extend_false {us : Row α} (hus : ∀ u ∈ us, v u.2 = false) (b : Bool) :
    extend v b us = (b && us.all fun u => u.1 = .or) := by
  induction us generalizing b with
  | nil => simp [extend]
  | cons u us ih =>
    have hu : u.1.apply b (v u.2) = (b && decide (u.1 = .or)) := by
      rw [hus u List.mem_cons_self]
      cases u.1 <;> cases b <;> rfl
    have := ih (fun w hw => hus w (List.mem_cons_of_mem u hw)) (b && decide (u.1 = .or))
    simpa [extend, hu, Bool.and_assoc] using this

/-- Stretches that no AND is in are single operands. -/
theorem any_later {later : List (Row α)} (hl : ∀ stretch ∈ later, IsLater stretch)
    (hor : ∀ u ∈ later.flatten, u.1 = .or) :
    (later.any fun stretch => stretch.all fun u => v u.2) = later.flatten.any fun u => v u.2 := by
  induction later with
  | nil => rfl
  | cons stretch later ih =>
    obtain ⟨u, us, rfl, -, hus⟩ := hl stretch List.mem_cons_self
    have hnil : us = [] := by
      cases us with
      | nil => rfl
      | cons w us =>
        have hand := hus w List.mem_cons_self
        rw [hor w (by simp)] at hand
        cases hand
    subst hnil
    have := ih (fun s hs => hl s (List.mem_cons_of_mem _ hs)) (fun w hw => hor w (by simp [hw]))
    simp [this]

/-- The operators of the later stretches decide whether an AND comes after an OR. -/
theorem andsFirst_iff {t : LogicalOp × α} {ts : Row α} {later : List (Row α)} (hts : ∀ u ∈ ts, u.1 = .and)
    (hl : ∀ stretch ∈ later, IsLater stretch) :
    AndsFirst (t :: ts ++ later.flatten) ↔ ∀ u ∈ later.flatten, u.1 = .or := by
  have hor : ∀ op : LogicalOp, op ≠ .and → op = .or := by
    intro op h
    cases op with
    | and => exact absurd rfl h
    | or => rfl
  have hands : (ts.map (·.1)).Pairwise fun a b => ¬ (a = .or ∧ b = .and) := by
    refine List.pairwise_map.mpr (List.pairwise_of_forall_mem_list fun a ha b _ h => ?_)
    rw [hts a ha] at h
    cases h.1
  unfold AndsFirst
  simp only [List.cons_append, List.tail_cons, List.map_append]
  rw [List.pairwise_append]
  constructor
  · rintro ⟨-, hlater, -⟩
    cases later with
    | nil => simp
    | cons stretch later =>
      obtain ⟨u, us, rfl, hu, -⟩ := hl stretch List.mem_cons_self
      simp only [List.flatten_cons, List.cons_append, List.map_cons, List.pairwise_cons] at hlater ⊢
      intro w hw
      rcases List.mem_cons.mp hw with rfl | hw
      · exact hu
      · exact hor w.1 fun hand => hlater.1 w.1 (List.mem_map_of_mem hw) ⟨hu, hand⟩
  · intro hall
    refine ⟨hands, ?_, ?_⟩
    · refine List.pairwise_map.mpr (List.pairwise_of_forall_mem_list fun a _ b hb h => ?_)
      rw [hall b hb] at h
      cases h.2
    · intro a ha b hb h
      obtain ⟨u, hu, rfl⟩ := List.mem_map.mp ha
      rw [hts u hu] at h
      cases h.1

/-- A row of operands that do not depend on one another has one value under both readings
    just if no AND comes after an OR. -/
theorem agrees_iff [DecidableEq α] {row : Row α} (hdistinct : (row.map (·.2)).Nodup) :
    (∀ v : α → Bool, byPrecedence v row = inCallOrder v row) ↔ AndsFirst row := by
  by_cases hne : row = []
  · subst hne
    exact ⟨fun _ => List.Pairwise.nil, fun _ _ => rfl⟩
  obtain ⟨t, ts, later, hs, hrow, hts, hl⟩ := exists_stretches hne
  have hprecedence : ∀ v, byPrecedence v row =
      ((v t.2 && ts.all fun u => v u.2) || later.any fun stretch => stretch.all fun u => v u.2) := by
    intro v
    unfold byPrecedence runs
    rw [hs]
    simp [Function.comp_def]
  have hcalls : ∀ v, inCallOrder v row = extend v (v t.2 && ts.all fun u => v u.2) later.flatten := by
    intro v
    rw [hrow, List.cons_append, inCallOrder, extend_append, extend_and hts]
  rw [hrow, andsFirst_iff hts hl, ← hrow]
  constructor
  · intro hagrees
    -- The first run is true and all else false.
    let v : α → Bool := fun a => decide (a ∈ (t :: ts).map (·.2))
    have hfirst : (v t.2 && ts.all fun u => v u.2) = true := by
      simp [v]
      exact fun op a h => .inr ⟨op, h⟩
    have hrest : ∀ u ∈ later.flatten, v u.2 = false := by
      rw [hrow, List.map_append, List.nodup_append] at hdistinct
      intro u hu
      simp only [v, decide_eq_false_iff_not]
      exact fun h => hdistinct.2.2 _ h _ (List.mem_map_of_mem hu) rfl
    have hall := hagrees v
    rw [hprecedence, hcalls, hfirst, extend_false hrest, Bool.true_or, Bool.true_and] at hall
    intro u hu
    exact of_decide_eq_true (List.all_eq_true.mp hall.symm u hu)
  · intro hor v
    rw [hprecedence, hcalls, extend_or hor, any_later hl hor]

end Boolean

end SqlDraft
