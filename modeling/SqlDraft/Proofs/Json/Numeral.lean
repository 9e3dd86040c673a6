/-
  SqlDraft.Proofs.Json.Numeral — a numeral reads back from each of its texts
  (`ofChars?_written`), which consist of the characters of numerals alone and start with a
  digit or a minus.
-/

import SqlDraft.Json.Token
import SqlDraft.Proofs.Json.Grammar

namespace SqlDraft.Numeral

variable {ds cs : List Char}

theorem Digits.exists_cons (h : Digits ds) : ∃ c cs, ds = c :: cs ∧ c.isDigit = true := by
  obtain ⟨c, cs, rfl⟩ := List.exists_cons_of_ne_nil h.ne_nil
  exact ⟨c, cs, rfl, h.allDigits c List.mem_cons_self⟩

/-- A run of characters of one kind ends at the first of another. -/
theorem span_append {p : Char → Bool} (hds : ∀ c ∈ ds, p c = true) (hcs : ∀ c ∈ cs.head?, p c = false) :
    (ds ++ cs).takeWhile p = ds ∧ (ds ++ cs).dropWhile p = cs := by
  rw [List.takeWhile_append_of_pos hds, List.dropWhile_append_of_pos hds]
  cases cs with
  | nil => simp
  | cons c cs => simp [hcs c rfl]

/-- Digits are read up to the first character that is none. -/
theorem digits?_append (h : Digits ds) (hcs : ∀ c ∈ cs.head?, c.isDigit = false) :
    digits? (ds ++ cs) = some (ds, cs) := by
  obtain ⟨htake, hdrop⟩ := span_append h.allDigits hcs
  obtain ⟨c, es, rfl, -⟩ := h.exists_cons
  rw [digits?, htake, hdrop]

theorem whole?_append (h : Digits ds) (hzero : ds.head? = some '0' → ds = ['0'])
    (hcs : ∀ c ∈ cs.head?, c.isDigit = false) : whole? (ds ++ cs) = some (ds, cs) := by
  rw [whole?, digits?_append h hcs]
  split
  · rename_i d es rest heq
    obtain ⟨rfl, rfl⟩ := Prod.mk.inj (Option.some.inj heq)
    cases hzero rfl
  · rfl

theorem fraction?_append {fraction : Option (List Char)} (h : ∀ ds ∈ fraction, Digits ds)
    (hcs : ∀ c ∈ cs.head?, c = 'e' ∨ c = 'E') :
    fraction? (fraction.elim [] ('.' :: ·) ++ cs) = some (fraction, cs) := by
  cases fraction with
  | none =>
    cases cs with
    | nil => rfl
    | cons c cs => rcases hcs c rfl with rfl | rfl <;> rfl
  | some ds =>
    have hdigit : ∀ c ∈ cs.head?, c.isDigit = false := fun c hc => by rcases hcs c hc with rfl | rfl <;> decide
    rw [Option.elim_some, List.cons_append, fraction?, digits?_append (h ds rfl) hdigit]
    rfl

theorem exponent?_written {exponent : Option Int} (h : ExponentWritten exponent cs) :
    exponent? cs = some exponent := by
  have hread {ds : List Char} (hds : Digits ds) : digits? ds = some (ds, []) := by
    have hnone : ∀ c ∈ ([] : List Char).head?, c.isDigit = false := nofun
    simpa using digits?_append hds hnone
  cases h with
  | absent => rfl
  | plus he hds => simp [exponent?, he, hread hds]
  | minus he hds => simp [exponent?, he, hread hds]
  | unsigned he hds =>
    have hsigned := hread hds
    obtain ⟨c, cs, rfl, hc⟩ := hds.exists_cons
    -- a digit is no sign
    have hplus : c ≠ '+' := fun e => by rw [e] at hc; cases hc
    have hminus : c ≠ '-' := fun e => by rw [e] at hc; cases hc
    simp [exponent?, he, hsigned, hplus, hminus]

/-- What follows the digits of a part: nothing, or the mark of the next part. -/
theorem head?_exponent {exponent : Option Int} (h : ExponentWritten exponent cs) :
    ∀ c ∈ cs.head?, c = 'e' ∨ c = 'E' := by
  intro c hc
  cases h with
  | absent => cases hc
  | unsigned he => cases hc; exact he
  | plus he => cases hc; exact he
  | minus he => cases hc; exact he

theorem ofChars?_written {n : Numeral} (h : n.Written cs) : ofChars? cs = some n := by
  cases h with
  | mk hwhole hzero hfraction hexponent =>
    rename_i negative whole fraction exponent es
    have hes := head?_exponent hexponent
    have hrest : ∀ c ∈ (fraction.elim [] ('.' :: ·) ++ es).head?, c.isDigit = false := by
      intro c hc
      cases fraction with
      | none => rcases hes c hc with rfl | rfl <;> decide
      | some ds => cases hc; decide
    have hunsigned := whole?_append hwhole hzero hrest
    have hfractions := fraction?_append hfraction hes
    have hexponents := exponent?_written hexponent
    cases negative with
    | true => simp [ofChars?, hunsigned, hfractions, hexponents]
    | false =>
      obtain ⟨c, ws, rfl, hc⟩ := hwhole.exists_cons
      have hminus : c ≠ '-' := fun e => by rw [e] at hc; cases hc
      simp only [List.cons_append] at hunsigned
      simp [ofChars?, hminus, hunsigned, hfractions, hexponents]

/-! ## Characters -/

theorem isNumeralChar_of_isDigit {c : Char} (h : c.isDigit = true) : Json.isNumeralChar c = true := by
  simp [Json.isNumeralChar, h]

theorem Digits.isNumeralChar (h : Digits ds) : ∀ c ∈ ds, Json.isNumeralChar c = true :=
  fun c hc => isNumeralChar_of_isDigit (h.allDigits c hc)

theorem ExponentWritten.isNumeralChar {exponent : Option Int} (h : ExponentWritten exponent cs) :
    ∀ c ∈ cs, Json.isNumeralChar c = true := by
  have hletter {e : Char} (he : e = 'e' ∨ e = 'E') : Json.isNumeralChar e = true := by
    rcases he with rfl | rfl <;> decide
  cases h with
  | absent => simp
  | unsigned he hds => exact List.forall_mem_cons.mpr ⟨hletter he, hds.isNumeralChar⟩
  | plus he hds =>
    exact List.forall_mem_cons.mpr ⟨hletter he, List.forall_mem_cons.mpr ⟨by decide, hds.isNumeralChar⟩⟩
  | minus he hds =>
    exact List.forall_mem_cons.mpr ⟨hletter he, List.forall_mem_cons.mpr ⟨by decide, hds.isNumeralChar⟩⟩

theorem Written.isNumeralChar {n : Numeral} (h : n.Written cs) : ∀ c ∈ cs, Json.isNumeralChar c = true := by
  cases h with
  | mk hwhole hzero hfraction hexponent =>
    rename_i negative whole fraction exponent es
    simp only [List.forall_mem_append]
    refine ⟨?_, hwhole.isNumeralChar, ?_, hexponent.isNumeralChar⟩
    · cases negative <;> simp [Json.isNumeralChar]
    · cases fraction with
      | none => simp
      | some ds => exact List.forall_mem_cons.mpr ⟨by decide, (hfraction ds rfl).isNumeralChar⟩

theorem Written.exists_cons {n : Numeral} (h : n.Written cs) : ∃ c ds, cs = c :: ds ∧ (c = '-' ∨ c.isDigit = true) := by
  cases h with
  | mk hwhole hzero hfraction hexponent =>
    rename_i negative whole fraction exponent es
    obtain ⟨c, ws, rfl, hc⟩ := hwhole.exists_cons
    cases negative with
    | true => exact ⟨_, _, rfl, .inl rfl⟩
    | false => exact ⟨_, _, rfl, .inr hc⟩

end SqlDraft.Numeral
