/-
  SqlDraft.Decimal.Binary64 — finite doubles as a sign, a significand and a scale, their
  products and quotients, and how a decimal is read with them. All values are counted in
  the least positive double, `2 ^ -1074`, so magnitudes are natural numbers: an operation
  computes exactly and rounds once, a tie to the even significand.
-/

namespace SqlDraft

/-- A finite double of magnitude `significand * 2 ^ scale` in units of `2 ^ -1074`. Only
    the smallest scale has significands below `2 ^ 52`, so a magnitude is written in one
    way; both zeros are values. -/
structure Binary64 where
  negative : Bool
  significand : Nat
  scale : Nat
  significand_lt : significand < Nat.pow 2 53
  normal : Nat.pow 2 52 ≤ significand ∨ scale = 0
  scale_le : scale ≤ 2045
  deriving DecidableEq, Repr

namespace Binary64

def units (x : Binary64) : Nat := x.significand * Nat.pow 2 x.scale

/-- The double of these parts, if they are those of one. -/
def ofParts? (negative : Bool) (significand scale : Nat) : Option Binary64 :=
  if h : significand < Nat.pow 2 53 ∧ (Nat.pow 2 52 ≤ significand ∨ scale = 0) ∧ scale ≤ 2045 then
    some ⟨negative, significand, scale, h.1, h.2.1, h.2.2⟩
  else none

def zero (negative : Bool) : Binary64 := ⟨negative, 0, 0, by decide, by decide, by decide⟩

/-- The integer nearest to `num / den`, of two equally near the even one. -/
def roundTiesToEven (num den : Nat) : Nat :=
  let q := num / den
  let twice := 2 * (num % den)
  if twice < den then q else if den < twice then q + 1 else q + q % 2

/-- The double nearest to `num / den`, unless that is beyond the greatest one. -/
def ofRatio? (negative : Bool) (num den : Nat) : Option Binary64 :=
  let n := num * Nat.pow 2 1074
  let scale := (n / den).log2 - 52
  let significand := roundTiesToEven n (den * Nat.pow 2 scale)
  if significand = Nat.pow 2 53 then ofParts? negative (Nat.pow 2 52) (scale + 1)
  else ofParts? negative significand scale

/-- The product, rounded, unless that is beyond the greatest double. -/
def mul? (x y : Binary64) : Option Binary64 :=
  ofRatio? (x.negative != y.negative) (x.units * y.units) (Nat.pow 2 2148)

/-- The quotient by a `y` that is not zero, rounded, unless that is beyond the greatest
    double. -/
def div? (x y : Binary64) : Option Binary64 := ofRatio? (x.negative != y.negative) x.units y.units

/-- The exponent of the greatest power of ten below the greatest double. -/
def maxTen : Nat := 308

/-- The double nearest to `10 ^ n`, unless that is beyond the greatest one. -/
def tenTo? (n : Nat) : Option Binary64 := if n ≤ maxTen then ofRatio? false (Nat.pow 10 n) 1 else none

/-- Multiplies by `10 ^ n`. A zero stays what it is, however great `n` is. -/
def mulTen? (x : Binary64) (n : Nat) : Option Binary64 :=
  if x.significand = 0 then some x else (tenTo? n).bind x.mul?

/-- Divides by `10 ^ n`, first by as many greatest powers as it takes for the rest of it to
    be a double. -/
def divTen? (x : Binary64) (n : Nat) : Option Binary64 :=
  if x.significand = 0 then some x
  else if n ≤ maxTen then (tenTo? n).bind x.div?
  else ((tenTo? maxTen).bind x.div?).bind (divTen? · (n - maxTen))
termination_by n
decreasing_by simp only [maxTen] at *; omega

/-- Reads `significand * 10 ^ exponent`, unless it is beyond the greatest double. The
    significand and the power of ten are rounded each, then their product or quotient, so
    the result of a long decimal may be a neighbour of the double nearest to it. -/
def ofDecimal? (negative : Bool) (significand : Nat) (exponent : Int) : Option Binary64 := do
  let x ← ofRatio? negative significand 1
  match exponent with
  | .ofNat n => x.mulTen? n
  | .negSucc n => x.divTen? (n + 1)

end Binary64

end SqlDraft
