/-
  SqlDraft.Proofs.Lexical.Numeral — a spelled number is one number token, after a minus if
  it is negative.

  The shortest decimal of a double has at least one digit (`digits_shortest_ne_nil`): a
  multiple that reads back as a double that is not zero is not zero itself. So there is
  always a digit before the point and before the exponent (`isNumeral_spell`).
-/

import SqlDraft.Json.Number
import SqlDraft.Proofs.Lexical.Scanner

namespace SqlDraft

def AllDigits (cs : List Char) : Prop := ∀ c ∈ cs, c.isDigit = true

/-! ## The digits of a decimal -/

theorem allDigits_toDigits (n : Nat) : AllDigits (Nat.toDigits 10 n) :=
  fun _ hc => Nat.isDigit_of_mem_toDigits (by decide) (by decide) hc

theorem ofDigitChars_zeros (cs : List Char) (h : ∀ c ∈ cs, c = '0') : Nat.ofDigitChars 10 cs 0 = 0 := by
  induction cs with
  | nil => rfl
  | cons c cs ih =>
    obtain rfl := h c (by simp)
    simpa [Nat.ofDigitChars] using ih fun d hd => h d (by simp [hd])

theorem AllDigits.append {as bs : List Char} (ha : AllDigits as) (hb : AllDigits bs) : AllDigits (as ++ bs) :=
  fun c hc => (List.mem_append.mp hc).elim (ha c) (hb c)

theorem AllDigits.subset {as bs : List Char} (ha : AllDigits as) (h : bs ⊆ as) : AllDigits bs := fun c hc => ha c (h hc)

theorem allDigits_zeros (n : Nat) : AllDigits (List.replicate n '0') := fun c hc => by
  rw [List.eq_of_mem_replicate hc]
  decide

namespace Binary64

/-- Powers are written by name in what is computed, so that a great one stays unevaluated. -/
theorem natPow_pos {b : Nat} (hb : 0 < b) (n : Nat) : 0 < Nat.pow b n := Nat.pow_pos hb

theorem allDigits_scientific (n : Nat) (k : Int) : AllDigits (scientific n k).digits := by
  intro c hc
  simp only [scientific, List.mem_reverse] at hc
  have := List.dropWhile_subset _ hc
  exact allDigits_toDigits n c (by simpa using this)

theorem digits_scientific_ne_nil {n : Nat} (hn : n ≠ 0) (k : Int) : (scientific n k).digits ≠ [] := by
  intro h
  have hnil : (Nat.toDigits 10 n).reverse.dropWhile (· == '0') = [] := List.reverse_eq_nil_iff.mp h
  have hzeros : ∀ c ∈ Nat.toDigits 10 n, c = '0' := by
    have := List.any_dropWhile (p := (· == '0')) (l := (Nat.toDigits 10 n).reverse)
    simpa [hnil] using this
  exact hn (by rw [← Nat.ofDigitChars_ten_toDigits (n := n), ofDigitChars_zeros _ hzeros])

theorem lowerQuarters_pos {x : Binary64} (hx : x.significand ≠ 0) : 0 < x.lowerQuarters := by
  have hp : 0 < Nat.pow 2 x.scale := natPow_pos (by decide) _
  have hs : 1 * Nat.pow 2 x.scale ≤ x.significand * Nat.pow 2 x.scale := Nat.mul_le_mul_right _ (by omega)
  unfold lowerQuarters units
  split <;> omega

/-- Zero lies below the interval of a double that is not zero. -/
theorem onGrid?_ne_zero {x : Binary64} (hx : x.significand ≠ 0) {k : Int} {n : Nat} (h : x.onGrid? k = some n) :
    n ≠ 0 := by
  have hlow : 0 < x.lowerQuarters * Nat.pow 10 (-k).toNat :=
    Nat.mul_pos (lowerQuarters_pos hx) (natPow_pos (by decide) _)
  unfold onGrid? at h
  dsimp only at h
  generalize x.lowerQuarters * Nat.pow 10 (-k).toNat = low at h hlow
  generalize 4 * Nat.pow 2 1074 * Nat.pow 10 k.toNat = perStep at h
  generalize 4 * x.units * Nat.pow 10 (-k).toNat / perStep = below at h
  -- a multiple inside the interval is at least its lower end
  have pos : ∀ {n high : Nat}, (if x.significand % 2 = 0 then decide (low ≤ n * perStep ∧ n * perStep ≤ high)
      else decide (low < n * perStep ∧ n * perStep < high)) = true → n ≠ 0 := by
    rintro n high hn rfl
    rw [Nat.zero_mul] at hn
    split at hn
    · have := (of_decide_eq_true hn).1
      omega
    · have := (of_decide_eq_true hn).1
      omega
  split at h
  · rename_i hb ha
    have := pos hb
    rw [← Option.some.inj h]
    split
    · exact this
    · split <;> omega
  · rename_i hb ha
    rw [← Option.some.inj h]
    exact pos hb
  · rename_i hb ha
    rw [← Option.some.inj h]
    exact pos ha
  · cases h

theorem digits_shortest (x : Binary64) : AllDigits x.shortest.digits ∧ x.shortest.digits ≠ [] := by
  unfold shortest
  split
  · exact ⟨by simp [AllDigits], by simp⟩
  · rename_i hx
    simp only
    split
    · rename_i d hd
      obtain ⟨k, -, hk⟩ := List.exists_of_findSome?_eq_some hd
      obtain ⟨n, hn, rfl⟩ := Option.map_eq_some_iff.mp hk
      exact ⟨allDigits_scientific n k, digits_scientific_ne_nil (onGrid?_ne_zero hx hn) k⟩
    · have hu : 0 < x.units := Nat.mul_pos (by omega) (natPow_pos (by decide) _)
      refine ⟨allDigits_scientific _ _, digits_scientific_ne_nil ?_ _⟩
      exact Nat.mul_ne_zero (Nat.ne_of_gt hu) (by decide +kernel)

end Binary64

/-! ## Numerals -/

namespace Sql

namespace NumberPart

/-- What has been read after more of a number. -/
def read? : NumberPart → List Char → Option NumberPart
  | part, [] => some part
  | part, c :: cs => (part.next? c).bind (read? · cs)

theorem read?_append (part : NumberPart) (as bs : List Char) :
    part.read? (as ++ bs) = (part.read? as).bind (·.read? bs) := by
  induction as generalizing part with
  | nil => rfl
  | cons c as ih =>
    cases h : part.next? c with
    | none => simp [read?, h]
    | some next => simp [read?, h, ih]

theorem read?_digits {part : NumberPart} (hp : ∀ c : Char, c.isDigit = true → part.next? c = some part)
    {cs : List Char} (h : AllDigits cs) : part.read? cs = some part := by
  induction cs with
  | nil => rfl
  | cons c cs ih => simp [read?, hp c (h c (by simp)), ih fun d hd => h d (by simp [hd])]

theorem read?_whole {cs : List Char} (h : AllDigits cs) : whole.read? cs = some whole :=
  read?_digits (fun c hc => by simp [next?, hc]) h

theorem read?_fraction {cs : List Char} (h : AllDigits cs) : fraction.read? cs = some fraction :=
  read?_digits (fun c hc => by simp [next?, hc]) h

theorem read?_power {cs : List Char} (h : AllDigits cs) : power.read? cs = some power :=
  read?_digits (fun c hc => by simp [next?, hc]) h

end NumberPart

/-- Starts with a digit and may end where it ends. -/
def IsNumeral (cs : List Char) : Prop :=
  (∃ c ds, cs = c :: ds ∧ c.isDigit = true) ∧ ∃ part, NumberPart.whole.read? cs = some part ∧ part.isComplete = true

variable {m : Text.Marks}

theorem run_number {part last : NumberPart} {cs read : List Char} (h : part.read? cs = some last) :
    (Mode.number part read).run m cs = some ([], .number last (cs.reverse ++ read)) := by
  induction cs generalizing part read with
  | nil => cases h; rfl
  | cons c cs ih =>
    obtain ⟨next, hn, hr⟩ := Option.bind_eq_some_iff.mp h
    simp [Mode.run, Mode.step, hn, ih hr]

theorem fresh_of_isDigit {c : Char} (h : c.isDigit = true) : fresh m c = some ([], .number .whole [c]) := by
  have hb : Text.isBlank c = false := by
    cases hb : Text.isBlank c with
    | false => rfl
    | true => rw [isDigit_of_delimits (by simp [delimits, hb])] at h; cases h
  have hp : c ∉ punctuation := fun hc => by
    have := List.all_eq_true.mp (rfl : punctuation.all (!·.isDigit) = true) c hc
    simp [h] at this
  have ho : c ∉ operators := fun hc => by
    have := List.all_eq_true.mp (rfl : operators.all (!·.isDigit) = true) c hc
    simp [h] at this
  simp [fresh, hb, hp, ho, h]

theorem spells_number {cs : List Char} (h : IsNumeral cs) : Spells m (String.ofList cs) [.number (String.ofList cs)] := by
  obtain ⟨⟨c, ds, rfl, hc⟩, part, hr, hp⟩ := h
  have hs : Mode.between.step m c = some ([], .number .whole [c]) := fresh_of_isDigit hc
  have hr : NumberPart.whole.read? ds = some part := by simpa [NumberPart.read?, NumberPart.next?, hc] using hr
  refine spells_iff.mpr ⟨[], .number part (ds.reverse ++ [c]), _, ?_, ?_, rfl⟩
  · simp [Mode.run, hs, run_number hr]
  · simp [Mode.close, hp]

/-- A minus right before a number is a symbol of its own. -/
theorem spells_negative {cs : List Char} (h : IsNumeral cs) :
    Spells m (String.ofList ('-' :: cs)) [.symbol "-", .number (String.ofList cs)] := by
  obtain ⟨⟨c, ds, rfl, hc⟩, part, hr, hp⟩ := h
  have hminus : Mode.between.step m '-' = some ([], .operator '-') := rfl
  have ne : ∀ {d : Char}, d.isDigit = false → c ≠ d := fun hd e => by rw [e, hd] at hc; cases hc
  have hs : (Mode.operator '-').step m c = some ([.symbol "-"], .number .whole [c]) := by
    simp [Mode.step, comments, pairs, ne (d := '-') (by decide), Mode.turn, Mode.close, fresh_of_isDigit hc]
  have hr : NumberPart.whole.read? ds = some part := by simpa [NumberPart.read?, NumberPart.next?, hc] using hr
  refine spells_iff.mpr ⟨[.symbol "-"], .number part (ds.reverse ++ [c]), _, ?_, ?_, rfl⟩
  · simp [Mode.run, hminus, hs, run_number hr]
  · simp [Mode.close, hp]

theorem exists_cons_of_allDigits {cs : List Char} (h : AllDigits cs) (hne : cs ≠ []) (more : List Char) :
    ∃ c ds, cs ++ more = c :: ds ∧ c.isDigit = true := by
  obtain ⟨c, ds, rfl⟩ := List.exists_cons_of_ne_nil hne
  exact ⟨c, ds ++ more, rfl, h c (by simp)⟩

theorem isNumeral_digits {cs : List Char} (h : AllDigits cs) (hne : cs ≠ []) : IsNumeral cs :=
  ⟨by simpa using exists_cons_of_allDigits h hne [], .whole, NumberPart.read?_whole h, rfl⟩

/-- Digits, a point and digits. -/
theorem read?_point {as bs : List Char} (ha : AllDigits as) (hb : AllDigits bs) :
    NumberPart.whole.read? (as ++ '.' :: bs) = some .fraction := by
  have hdot : NumberPart.whole.next? '.' = some .fraction := rfl
  simp [NumberPart.read?_append, NumberPart.read?_whole ha, NumberPart.read?, hdot, NumberPart.read?_fraction hb]

theorem isNumeral_positional {x : Scientific} (hd : AllDigits x.digits) (hne : x.digits ≠ []) :
    IsNumeral (Decimal.positional x) := by
  unfold Decimal.positional
  split
  · have hzeros := (allDigits_zeros (-x.exponent - 1).toNat).append hd
    exact ⟨⟨'0', _, rfl, by decide⟩, .fraction, @read?_point ['0'] _ (by simp [AllDigits]) hzeros, rfl⟩
  · have hwhole : AllDigits (x.digits.take (x.exponent.toNat + 1) ++
        List.replicate (x.exponent.toNat + 1 - x.digits.length) '0') :=
      (hd.subset (List.take_subset _ _)).append (allDigits_zeros _)
    have hfraction : AllDigits (if (x.digits.drop (x.exponent.toNat + 1)).isEmpty then ['0']
        else x.digits.drop (x.exponent.toNat + 1)) := by
      split
      · simp [AllDigits]
      · exact hd.subset (List.drop_subset _ _)
    exact ⟨exists_cons_of_allDigits hwhole (by simp [hne]) _, .fraction, read?_point hwhole hfraction, rfl⟩

theorem read?_exponent {cs es : List Char} {part : NumberPart} (hc : NumberPart.whole.read? cs = some part)
    (hp : part.next? 'e' = some .exponent) {sign : Char} (hs : sign = '+' ∨ sign = '-') (he : AllDigits es)
    (hne : es ≠ []) : NumberPart.whole.read? (cs ++ 'e' :: sign :: es) = some .power := by
  have hsign : NumberPart.exponent.next? sign = some .sign := by rcases hs with rfl | rfl <;> rfl
  obtain ⟨e, es, rfl⟩ := List.exists_cons_of_ne_nil hne
  have hfirst : NumberPart.sign.next? e = some .power := by simp [NumberPart.next?, he e (by simp)]
  have hrest : NumberPart.power.read? es = some .power := NumberPart.read?_power fun d hd => he d (by simp [hd])
  simp [NumberPart.read?_append, hc, NumberPart.read?, hp, hsign, hfirst, hrest]

theorem isNumeral_exponential {x : Scientific} (hd : AllDigits x.digits) (hne : x.digits ≠ []) :
    IsNumeral (Decimal.exponential x) := by
  have hsign : (if x.exponent < 0 then '-' else '+') = '+' ∨ (if x.exponent < 0 then '-' else '+') = '-' := by
    split <;> simp
  have hexp := allDigits_toDigits x.exponent.natAbs
  have hexpne : Nat.toDigits 10 x.exponent.natAbs ≠ [] := Nat.toDigits_ne_nil
  unfold Decimal.exponential
  split
  · rename_i d e ds h
    rw [h] at hd
    have hd1 : AllDigits [d] := hd.subset (by simp)
    have hm : NumberPart.whole.read? (d :: '.' :: e :: ds) = some .fraction :=
      read?_point hd1 (hd.subset (by simp))
    exact ⟨⟨d, _, rfl, hd d (by simp)⟩, .power, read?_exponent hm rfl hsign hexp hexpne, rfl⟩
  · exact ⟨exists_cons_of_allDigits hd hne _, .power,
      read?_exponent (NumberPart.read?_whole hd) rfl hsign hexp hexpne, rfl⟩

theorem isNumeral_toDigits (n : Nat) : IsNumeral (Nat.toDigits 10 n) :=
  isNumeral_digits (allDigits_toDigits n) Nat.toDigits_ne_nil

theorem isNumeral_spell (style : Decimal.Style) (x : Binary64) : IsNumeral (style.spell x.shortest) := by
  obtain ⟨hd, hne⟩ := x.digits_shortest
  unfold Decimal.Style.spell
  split
  · exact isNumeral_positional hd hne
  · exact isNumeral_exponential hd hne

end Sql

end SqlDraft
