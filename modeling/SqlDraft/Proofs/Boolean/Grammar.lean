/-
  SqlDraft.Proofs.Boolean.Grammar — how SQL reads a Boolean condition. Parentheses group, NOT
  binds tighter than AND and AND tighter than OR; both connectives associate to the left.
  What is left are TRUE, FALSE and comparisons of columns and values.

  A list of tokens has at most one reading (`Reads.unique`). A connective that divides a
  reading stands outside of all parentheses, so the text before it is `Balanced`, and what
  follows it is not divided by the same connective again (`Undivided`): there is one place
  for it (`division_unique`).
-/

import SqlDraft.Proofs.Lexical.Condition

namespace SqlDraft.Boolean

open Sql

inductive Formula where
  /-- A comparison, by its tokens. -/
  | comparison (tokens : List Token)
  | constant (value : Bool)
  | not (inner : Formula)
  | and (left right : Formula)
  | or (left right : Formula)
  deriving DecidableEq, Repr

/-- The value of a formula, given those of its comparisons. -/
def Formula.value (v : List Token → Bool) : Formula → Bool
  | .comparison ts => v ts
  | .constant b => b
  | .not f => !f.value v
  | .and f g => f.value v && g.value v
  | .or f g => f.value v || g.value v

/-! ## The grammar -/

inductive IsOperand : List Token → Prop where
  | column (c : ColumnName) : IsOperand c.tokens
  | value (v : Json) : IsOperand v.tokens

inductive IsComparison : List Token → Prop where
  | compare {a b : List Token} {op : ComparisonOp} : IsOperand a → op.takesList = false → IsOperand b →
      IsComparison (a ++ op.tokens ++ b)
  | list {a : List Token} {op : ComparisonOp} {vs : List (List Token)} : IsOperand a → op.takesList = true → vs ≠ [] →
      (∀ v ∈ vs, IsOperand v) → IsComparison (a ++ op.tokens ++ parenthesized (commaSeparated vs))
  | isNull {a : List Token} : IsOperand a → IsComparison (a ++ [.word "IS", .word "NULL"])
  | isNotNull {a : List Token} : IsOperand a → IsComparison (a ++ [.word "IS", .word "NOT", .word "NULL"])

/-- How tightly a condition holds together. -/
inductive Level where
  | disjunction | conjunction | factor
  deriving DecidableEq, Repr

inductive Reads : Level → List Token → Formula → Prop where
  | or {a b : List Token} {φ ψ : Formula} : Reads .disjunction a φ → Reads .conjunction b ψ →
      Reads .disjunction (a ++ .word "OR" :: b) (.or φ ψ)
  | conjunction {a : List Token} {φ : Formula} : Reads .conjunction a φ → Reads .disjunction a φ
  | and {a b : List Token} {φ ψ : Formula} : Reads .conjunction a φ → Reads .factor b ψ →
      Reads .conjunction (a ++ .word "AND" :: b) (.and φ ψ)
  | factor {a : List Token} {φ : Formula} : Reads .factor a φ → Reads .conjunction a φ
  | not {a : List Token} {φ : Formula} : Reads .factor a φ → Reads .factor (.word "NOT" :: a) (.not φ)
  | group {a : List Token} {φ : Formula} : Reads .disjunction a φ → Reads .factor (parenthesized a) φ
  | isTrue : Reads .factor [.word "TRUE"] (.constant true)
  | isFalse : Reads .factor [.word "FALSE"] (.constant false)
  | comparison {a : List Token} : IsComparison a → Reads .factor a (.comparison a)

/-! ## Parentheses -/

/-- How many parentheses are open after `t`, if `n` are before it. -/
def nest (n : Nat) (t : Token) : Option Nat :=
  if t = .symbol "(" then some (n + 1)
  else if t = .symbol ")" then (if n = 0 then none else some (n - 1))
  else some n

def depth : Nat → List Token → Option Nat
  | n, [] => some n
  | n, t :: ts => (nest n t).bind fun k => depth k ts

def Balanced (ts : List Token) : Prop := depth 0 ts = some 0

/-- Neither a parenthesis nor a connective. -/
def IsPlain (t : Token) : Prop := t ≠ .symbol "(" ∧ t ≠ .symbol ")" ∧ t ≠ .word "OR" ∧ t ≠ .word "AND"

theorem depth_append (n : Nat) (a b : List Token) : depth n (a ++ b) = (depth n a).bind fun k => depth k b := by
  induction a generalizing n with
  | nil => rfl
  | cons t a ih =>
    simp only [List.cons_append, depth]
    cases nest n t with
    | none => rfl
    | some k => exact ih k

theorem nest_add {n k : Nat} {t : Token} (h : nest n t = some k) (j : Nat) : nest (n + j) t = some (k + j) := by
  unfold nest at h ⊢
  split
  · rw [if_pos ‹_›] at h
    cases h
    congr 1
    omega
  · rw [if_neg ‹_›] at h
    split
    · rw [if_pos ‹_›] at h
      split at h
      · cases h
      · cases h
        rw [if_neg (by omega)]
        congr 1
        omega
    · rw [if_neg ‹_›] at h
      cases h
      rfl

/-- What is open before stays open. -/
theorem depth_add {n k : Nat} {ts : List Token} (h : depth n ts = some k) (j : Nat) : depth (n + j) ts = some (k + j) := by
  induction ts generalizing n with
  | nil =>
    cases h
    rfl
  | cons t ts ih =>
    obtain ⟨l, hl, h⟩ := Option.bind_eq_some_iff.mp h
    rw [depth, nest_add hl]
    exact ih h

theorem Balanced.depth {ts : List Token} (h : Balanced ts) (n : Nat) : Boolean.depth n ts = some n := by
  have := depth_add h n
  rwa [Nat.zero_add] at this

theorem Balanced.append {a b : List Token} (ha : Balanced a) (hb : Balanced b) : Balanced (a ++ b) := by
  unfold Balanced
  rw [depth_append, ha]
  exact hb

theorem Balanced.of_append {a b : List Token} (ha : Balanced a) (h : Balanced (a ++ b)) : Balanced b := by
  unfold Balanced at h
  rw [depth_append, ha] at h
  exact h

theorem nest_of_ne {t : Token} (ho : t ≠ .symbol "(") (hc : t ≠ .symbol ")") (n : Nat) : nest n t = some n := by
  unfold nest
  rw [if_neg ho, if_neg hc]

theorem balanced_of_isPlain {ts : List Token} (h : ∀ t ∈ ts, IsPlain t) : Balanced ts := by
  induction ts with
  | nil => rfl
  | cons t ts ih =>
    obtain ⟨ho, hc, -⟩ := h t List.mem_cons_self
    unfold Balanced
    rw [Boolean.depth, nest_of_ne ho hc]
    exact ih fun u hu => h u (List.mem_cons_of_mem t hu)

theorem Balanced.cons {t : Token} {ts : List Token} (ho : t ≠ .symbol "(") (hc : t ≠ .symbol ")") (h : Balanced ts) :
    Balanced (t :: ts) := by
  unfold Balanced
  rw [Boolean.depth, nest_of_ne ho hc]
  exact h

theorem Balanced.parenthesized {ts : List Token} (h : Balanced ts) : Balanced (parenthesized ts) := by
  show (some 1).bind (fun k => Boolean.depth k (ts ++ [.symbol ")"])) = some 0
  rw [Option.bind_some, depth_append, h.depth]
  rfl

/-! ## Where a connective divides -/

/-- Not a parenthesis. -/
def IsConnective (w : Token) : Prop := w = .word "OR" ∨ w = .word "AND"

theorem IsConnective.ne_symbol {w : Token} (hw : IsConnective w) (text : String) : w ≠ .symbol text := by
  rcases hw with rfl | rfl <;> simp

/-- `w` never stands outside of all parentheses. -/
def Undivided (w : Token) (ts : List Token) : Prop := ∀ a b, ts = a ++ w :: b → ¬ Balanced a

theorem undivided_of_not_mem {w : Token} {ts : List Token} (h : w ∉ ts) : Undivided w ts := by
  rintro a b rfl
  exact absurd (List.mem_append_right a List.mem_cons_self) h

theorem Undivided.append {w v : Token} {a b : List Token} (hne : v ≠ w) (hv : ∀ text, v ≠ .symbol text)
    (hbal : Balanced a) (ha : Undivided w a) (hb : Undivided w b) : Undivided w (a ++ v :: b) := by
  intro c d h hc
  rcases List.append_eq_append_iff.mp h with ⟨e, rfl, he⟩ | ⟨e, rfl, he⟩
  · -- `w` comes after `a`.
    have hbe := hbal.of_append hc
    cases e with
    | nil =>
      cases he
      exact hne rfl
    | cons u e =>
      cases he
      refine hb e d rfl ?_
      unfold Balanced at hbe ⊢
      rwa [depth, nest_of_ne (hv _) (hv _)] at hbe
  · cases e with
    | nil =>
      cases he
      exact hne rfl
    | cons u e =>
      cases he
      exact ha c e rfl hc

theorem Undivided.parenthesized {w : Token} {ts : List Token} (hw : IsConnective w) (h : Balanced ts) :
    Undivided w (parenthesized ts) := by
  intro a b hab ha
  cases a with
  | nil =>
    have : Token.symbol "(" = w := (List.cons.inj hab).1
    exact hw.ne_symbol _ this.symm
  | cons t a =>
    obtain ⟨rfl, hrest⟩ := List.cons.inj hab
    -- Inside, at least the first parenthesis is open.
    have hdepth : depth 1 a = some 0 := ha
    have hin : ∃ k, depth 0 a = some k := by
      rcases List.append_eq_append_iff.mp hrest with ⟨e, rfl, he⟩ | ⟨e, hts, he⟩
      · cases e with
        | nil => exact ⟨0, by rwa [List.append_nil]⟩
        | cons u e =>
          have : w ∈ [Token.symbol ")"] := by
            rw [he]
            exact List.mem_append_right _ List.mem_cons_self
          exact absurd (List.mem_singleton.mp this) (hw.ne_symbol _)
      · unfold Balanced at h
        rw [hts, depth_append] at h
        obtain ⟨k, hk, -⟩ := Option.bind_eq_some_iff.mp h
        exact ⟨k, hk⟩
    obtain ⟨k, hk⟩ := hin
    have := depth_add hk 1
    rw [hdepth] at this
    have := Option.some.inj this
    omega

/-- Of two divisions by `w` neither stands before the other. -/
theorem nil_of_division {w : Token} {a b e d : List Token} (hw : ∀ text, w ≠ .symbol text) (ha : Balanced a)
    (hae : Balanced (a ++ e)) (hb : Undivided w b) (h : w :: b = e ++ w :: d) : e = [] := by
  cases e with
  | nil => rfl
  | cons u e =>
    cases h
    have hbe := ha.of_append hae
    unfold Balanced at hbe
    rw [depth, nest_of_ne (hw _) (hw _)] at hbe
    exact absurd hbe (hb e d rfl)

/-- There is one place for the last division by `w`. -/
theorem division_unique {w : Token} {a b c d : List Token} (hw : ∀ text, w ≠ .symbol text) (ha : Balanced a)
    (hc : Balanced c) (hb : Undivided w b) (hd : Undivided w d) (h : a ++ w :: b = c ++ w :: d) : a = c ∧ b = d := by
  rcases List.append_eq_append_iff.mp h with ⟨e, rfl, he⟩ | ⟨e, rfl, he⟩
  · have hnil := nil_of_division hw ha hc hb he
    subst hnil
    cases he
    exact ⟨(List.append_nil a).symm, rfl⟩
  · have hnil := nil_of_division hw hc ha hd he
    subst hnil
    cases he
    exact ⟨List.append_nil c, rfl⟩

/-! ## Comparisons -/

theorem isPlain_of_isOperand {ts : List Token} (h : IsOperand ts) : ∀ t ∈ ts, IsPlain t := by
  cases h with
  | column c =>
    obtain ⟨table, column⟩ := c
    cases table <;> simp [ColumnName.tokens, qualifierTokens, IsPlain]
  | value v =>
    cases v with
    | bool b => cases b <;> simp [Json.tokens, IsPlain]
    | number n =>
      cases n <;> simp only [Json.tokens, Number.tokens] <;> split <;> simp [IsPlain]
    | _ => simp [Json.tokens, IsPlain]

theorem isPlain_of_mem_op {op : ComparisonOp} : ∀ t ∈ op.tokens, IsPlain t := by
  cases op <;> simp [ComparisonOp.tokens, IsPlain]

theorem isPlain_commaSeparated {vs : List (List Token)} (h : ∀ v ∈ vs, ∀ t ∈ v, IsPlain t) :
    ∀ t ∈ commaSeparated vs, IsPlain t := by
  induction vs with
  | nil =>
    intro t ht
    cases ht
  | cons v vs ih =>
    have hv := h v List.mem_cons_self
    have hvs := ih fun u hu => h u (List.mem_cons_of_mem v hu)
    cases vs with
    | nil => simpa [commaSeparated] using hv
    | cons u vs =>
      intro t ht
      unfold commaSeparated at ht hvs
      rw [List.intercalate_cons_cons, List.append_assoc] at ht
      rcases List.mem_append.mp ht with ht | ht
      · exact hv t ht
      · rcases List.mem_cons.mp ht with rfl | ht
        · simp [IsPlain]
        · exact hvs t ht

/-- An operand does not start as a negation does. -/
theorem exists_cons_of_isOperand {ts : List Token} (h : IsOperand ts) : ∃ t us, ts = t :: us ∧ t ≠ .word "NOT" := by
  cases h with
  | column c =>
    obtain ⟨table, column⟩ := c
    cases table with
    | none => exact ⟨.name column, [], rfl, by simp⟩
    | some table => exact ⟨.name table, [.symbol ".", .name column], rfl, by simp⟩
  | value v =>
    cases v with
    | bool b => cases b <;> simp [Json.tokens]
    | number n =>
      cases n <;> simp only [Json.tokens, Number.tokens] <;> split <;> simp
    | _ => simp [Json.tokens]

theorem isPlain_append {a b : List Token} (ha : ∀ t ∈ a, IsPlain t) (hb : ∀ t ∈ b, IsPlain t) :
    ∀ t ∈ a ++ b, IsPlain t := by
  intro t ht
  rcases List.mem_append.mp ht with ht | ht
  · exact ha t ht
  · exact hb t ht

/-- A comparison has parentheses around a list at most, and no connective anywhere. -/
theorem balanced_of_isComparison {ts : List Token} (h : IsComparison ts) :
    Balanced ts ∧ ∀ w, IsConnective w → w ∉ ts := by
  have plain : ∀ {us : List Token}, (∀ t ∈ us, IsPlain t) → Balanced us ∧ ∀ w, IsConnective w → w ∉ us := by
    intro us hus
    refine ⟨balanced_of_isPlain hus, fun w hw hmem => ?_⟩
    obtain ⟨-, -, hor, hand⟩ := hus w hmem
    rcases hw with rfl | rfl
    · exact hor rfl
    · exact hand rfl
  cases h with
  | compare ha hop hb =>
    exact plain (isPlain_append (isPlain_append (isPlain_of_isOperand ha) isPlain_of_mem_op) (isPlain_of_isOperand hb))
  | list ha hop hne hvs =>
    obtain ⟨hleft, hleft'⟩ := plain (isPlain_append (isPlain_of_isOperand ha) isPlain_of_mem_op)
    obtain ⟨hlist, hlist'⟩ := plain (isPlain_commaSeparated fun v hv => isPlain_of_isOperand (hvs v hv))
    refine ⟨hleft.append hlist.parenthesized, fun w hw hmem => ?_⟩
    rcases List.mem_append.mp hmem with hmem | hmem
    · exact hleft' w hw hmem
    · rcases List.mem_append.mp hmem with hmem | hmem
      · rcases List.mem_cons.mp hmem with hmem | hmem
        · exact hw.ne_symbol _ hmem
        · exact hlist' w hw hmem
      · exact hw.ne_symbol _ (List.mem_singleton.mp hmem)
  | isNull ha => exact plain (isPlain_append (isPlain_of_isOperand ha) (by simp [IsPlain]))
  | isNotNull ha => exact plain (isPlain_append (isPlain_of_isOperand ha) (by simp [IsPlain]))

/-- A comparison starts neither as a negation nor as a group does, and it is not a word. -/
theorem exists_cons_of_isComparison {ts : List Token} (h : IsComparison ts) :
    ∃ t us, ts = t :: us ∧ t ≠ .word "NOT" ∧ t ≠ .symbol "(" ∧ us ≠ [] := by
  have start : ∀ {a b : List Token}, IsOperand a → b ≠ [] →
      ∃ t us, a ++ b = t :: us ∧ t ≠ .word "NOT" ∧ t ≠ .symbol "(" ∧ us ≠ [] := by
    intro a b ha hb
    obtain ⟨t, us, rfl, ht⟩ := exists_cons_of_isOperand ha
    have hplain := isPlain_of_isOperand ha t List.mem_cons_self
    exact ⟨t, us ++ b, rfl, ht, hplain.1, by simp [hb]⟩
  cases h with
  | compare ha hop hb =>
    rw [List.append_assoc]
    refine start ha ?_
    rename_i op
    cases op <;> simp [ComparisonOp.tokens]
  | list ha hop hne hvs =>
    rw [List.append_assoc]
    exact start ha (by simp [parenthesized])
  | isNull ha => exact start ha (by simp)
  | isNotNull ha => exact start ha (by simp)

/-! ## One reading -/

theorem Reads.balanced {l : Level} {ts : List Token} {φ : Formula} (h : Reads l ts φ) : Balanced ts := by
  induction h with
  | or ha hb iha ihb => exact iha.append (ihb.cons (by simp) (by simp))
  | conjunction h ih => exact ih
  | and ha hb iha ihb => exact iha.append (ihb.cons (by simp) (by simp))
  | factor h ih => exact ih
  | not h ih => exact ih.cons (by simp) (by simp)
  | group h ih => exact ih.parenthesized
  | isTrue => rfl
  | isFalse => rfl
  | comparison h => exact (balanced_of_isComparison h).1

/-- What a reading is not divided by at its level. -/
def Level.excludes : Level → Token → Prop
  | .disjunction, _ => False
  | .conjunction, w => w = .word "OR"
  | .factor, w => IsConnective w

/-- Below a connective there is none that binds less tightly, but inside of parentheses. -/
theorem Reads.undivided {l : Level} {ts : List Token} {φ : Formula} (h : Reads l ts φ) {w : Token}
    (hw : l.excludes w) : Undivided w ts := by
  induction h with
  | or => cases hw
  | conjunction => cases hw
  | and ha hb iha ihb =>
    cases hw
    exact Undivided.append (by simp) (by simp) ha.balanced (iha rfl) (ihb (.inl rfl))
  | factor h ih =>
    cases hw
    exact ih (.inl rfl)
  | not h ih =>
    have hne : Token.word "NOT" ≠ w := by rcases hw with rfl | rfl <;> simp
    have hnil : Undivided w [] := undivided_of_not_mem (by simp)
    exact Undivided.append (a := []) hne (by simp) rfl hnil (ih hw)
  | group h ih => exact Undivided.parenthesized hw h.balanced
  | isTrue => exact undivided_of_not_mem (by rcases hw with rfl | rfl <;> simp)
  | isFalse => exact undivided_of_not_mem (by rcases hw with rfl | rfl <;> simp)
  | comparison h => exact undivided_of_not_mem ((balanced_of_isComparison h).2 w hw)

theorem Reads.disjunction_cases {ts : List Token} {φ : Formula} (h : Reads .disjunction ts φ) :
    (∃ a b α β, ts = a ++ .word "OR" :: b ∧ φ = .or α β ∧ Reads .disjunction a α ∧ Reads .conjunction b β) ∨
      Reads .conjunction ts φ := by
  cases h with
  | or ha hb => exact .inl ⟨_, _, _, _, rfl, rfl, ha, hb⟩
  | conjunction h => exact .inr h

theorem Reads.conjunction_cases {ts : List Token} {φ : Formula} (h : Reads .conjunction ts φ) :
    (∃ a b α β, ts = a ++ .word "AND" :: b ∧ φ = .and α β ∧ Reads .conjunction a α ∧ Reads .factor b β) ∨
      Reads .factor ts φ := by
  cases h with
  | and ha hb => exact .inl ⟨_, _, _, _, rfl, rfl, ha, hb⟩
  | factor h => exact .inr h

/-- The first token and whether it is the only one tell what a factor is. -/
theorem Reads.factor_cases {ts : List Token} {φ : Formula} (h : Reads .factor ts φ) :
    (∃ a α, ts = .word "NOT" :: a ∧ φ = .not α ∧ Reads .factor a α) ∨
      (∃ a, ts = parenthesized a ∧ Reads .disjunction a φ) ∨ (ts = [.word "TRUE"] ∧ φ = .constant true) ∨
      (ts = [.word "FALSE"] ∧ φ = .constant false) ∨ (IsComparison ts ∧ φ = .comparison ts) := by
  cases h with
  | not h => exact .inl ⟨_, _, rfl, rfl, h⟩
  | group h => exact .inr (.inl ⟨_, rfl, h⟩)
  | isTrue => exact .inr (.inr (.inl ⟨rfl, rfl⟩))
  | isFalse => exact .inr (.inr (.inr (.inl ⟨rfl, rfl⟩)))
  | comparison h => exact .inr (.inr (.inr (.inr ⟨h, rfl⟩)))

theorem not_isComparison_not (ts : List Token) : ¬ IsComparison (.word "NOT" :: ts) := by
  intro h
  obtain ⟨t, us, he, hnot, -, -⟩ := exists_cons_of_isComparison h
  cases he
  exact hnot rfl

theorem not_isComparison_group (ts : List Token) : ¬ IsComparison (parenthesized ts) := by
  intro h
  obtain ⟨t, us, he, -, hopen, -⟩ := exists_cons_of_isComparison h
  cases he
  exact hopen rfl

theorem not_isComparison_singleton (t : Token) : ¬ IsComparison [t] := by
  intro h
  obtain ⟨u, us, he, -, -, hne⟩ := exists_cons_of_isComparison h
  cases he
  exact hne rfl

theorem parenthesized_inj {a b : List Token} (h : parenthesized a = parenthesized b) : a = b :=
  List.append_cancel_right (List.cons.inj h).2

/-- The grammar is unambiguous. -/
theorem Reads.unique {l : Level} {ts : List Token} {φ ψ : Formula} (h : Reads l ts φ) (h' : Reads l ts ψ) : φ = ψ := by
  induction h generalizing ψ with
  | @or a b φ₁ φ₂ ha hb iha ihb =>
    rcases h'.disjunction_cases with ⟨c, d, γ, δ, he, rfl, hc, hd⟩ | h'
    · obtain ⟨rfl, rfl⟩ := division_unique (by simp) ha.balanced hc.balanced (hb.undivided rfl) (hd.undivided rfl) he
      rw [iha hc, ihb hd]
    · exact absurd ha.balanced (h'.undivided rfl a b rfl)
  | conjunction h ih =>
    rcases h'.disjunction_cases with ⟨c, d, γ, δ, rfl, rfl, hc, hd⟩ | h'
    · exact absurd hc.balanced (h.undivided rfl c d rfl)
    · exact ih h'
  | @and a b φ₁ φ₂ ha hb iha ihb =>
    rcases h'.conjunction_cases with ⟨c, d, γ, δ, he, rfl, hc, hd⟩ | h'
    · obtain ⟨rfl, rfl⟩ :=
        division_unique (by simp) ha.balanced hc.balanced (hb.undivided (.inr rfl)) (hd.undivided (.inr rfl)) he
      rw [iha hc, ihb hd]
    · exact absurd ha.balanced (h'.undivided (.inr rfl) a b rfl)
  | factor h ih =>
    rcases h'.conjunction_cases with ⟨c, d, γ, δ, rfl, rfl, hc, hd⟩ | h'
    · exact absurd hc.balanced (h.undivided (.inr rfl) c d rfl)
    · exact ih h'
  | @not a φ h ih =>
    rcases h'.factor_cases with ⟨c, γ, he, rfl, hc⟩ | ⟨c, he, -⟩ | ⟨he, -⟩ | ⟨he, -⟩ | ⟨hc, -⟩
    · cases he
      rw [ih hc]
    · cases he
    · simp at he
    · simp at he
    · exact absurd hc (not_isComparison_not a)
  | @group a φ h ih =>
    rcases h'.factor_cases with ⟨c, γ, he, -, -⟩ | ⟨c, he, hc⟩ | ⟨he, -⟩ | ⟨he, -⟩ | ⟨hc, -⟩
    · cases he
    · cases parenthesized_inj he
      exact ih hc
    · cases he
    · cases he
    · exact absurd hc (not_isComparison_group a)
  | isTrue =>
    rcases h'.factor_cases with ⟨c, γ, he, -, -⟩ | ⟨c, he, -⟩ | ⟨-, rfl⟩ | ⟨he, -⟩ | ⟨hc, -⟩
    · simp at he
    · cases he
    · rfl
    · simp at he
    · exact absurd hc (not_isComparison_singleton _)
  | isFalse =>
    rcases h'.factor_cases with ⟨c, γ, he, -, -⟩ | ⟨c, he, -⟩ | ⟨he, -⟩ | ⟨-, rfl⟩ | ⟨hc, -⟩
    · simp at he
    · cases he
    · simp at he
    · rfl
    · exact absurd hc (not_isComparison_singleton _)
  | @comparison a h =>
    rcases h'.factor_cases with ⟨c, γ, rfl, -, -⟩ | ⟨c, rfl, -⟩ | ⟨rfl, -⟩ | ⟨rfl, -⟩ | ⟨-, rfl⟩
    · exact absurd h (not_isComparison_not c)
    · exact absurd h (not_isComparison_group c)
    · exact absurd h (not_isComparison_singleton _)
    · exact absurd h (not_isComparison_singleton _)
    · rfl

end SqlDraft.Boolean
