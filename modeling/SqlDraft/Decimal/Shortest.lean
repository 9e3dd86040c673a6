/-
  SqlDraft.Decimal.Shortest — the shortest decimal that reads back as a given double.

  The reals that round to a double form an interval around it, half a unit to each side
  and a quarter below a power of two, with its ends if the significand is even. On the
  grids of one, two, … seventeen digits the two neighbours of the double are tried; the
  first grid with a neighbour inside the interval has the fewest digits, and of two
  neighbours inside, the nearer is taken, the even one of two equally near.
-/

import SqlDraft.Decimal.Binary64

namespace SqlDraft

/-- The decimal `d₁.d₂d₃… * 10 ^ exponent`; the last digit is not a zero unless it is the
    only one. -/
structure Scientific where
  digits : List Char
  exponent : Int
  deriving DecidableEq, Repr

namespace Binary64

/-- The interval of reals that round to `x`, in quarters of `2 ^ -1074`. -/
def lowerQuarters (x : Binary64) : Nat :=
  4 * x.units - (if x.significand = Nat.pow 2 52 ∧ 0 < x.scale then 1 else 2) * Nat.pow 2 x.scale

def upperQuarters (x : Binary64) : Nat := 4 * x.units + 2 * Nat.pow 2 x.scale

/-- The multiple of `10 ^ k` nearest to `x` among those that read back as `x`. -/
def onGrid? (x : Binary64) (k : Int) : Option Nat :=
  let perValue := Nat.pow 10 (-k).toNat
  let perStep := 4 * Nat.pow 2 1074 * Nat.pow 10 k.toNat
  let low := x.lowerQuarters * perValue
  let mid := 4 * x.units * perValue
  let high := x.upperQuarters * perValue
  let readsBack (n : Nat) : Bool :=
    if x.significand % 2 = 0 then decide (low ≤ n * perStep ∧ n * perStep ≤ high)
    else decide (low < n * perStep ∧ n * perStep < high)
  let below := mid / perStep
  let above := below + 1
  match readsBack below, readsBack above with
  | true, true =>
    let short := mid - below * perStep
    let excess := above * perStep - mid
    some (if short < excess then below else if excess < short then above else below + below % 2)
  | true, false => some below
  | false, true => some above
  | false, false => none

/-- The exponent of the first digit of `x`, which is not zero. -/
def leadingExponent (x : Binary64) : Int :=
  (Nat.repr (x.units * Nat.pow 10 400 / Nat.pow 2 1074)).length - 401

/-- A multiple of `10 ^ k` without its trailing zeros. -/
def scientific (n : Nat) (k : Int) : Scientific :=
  let digits := Nat.toDigits 10 n
  { digits := (digits.reverse.dropWhile (· == '0')).reverse
    exponent := k + digits.length - 1 }

/-- The shortest decimal for `x`; a zero has the one digit. Seventeen digits always
    suffice, and past them stands the exact value. -/
def shortest (x : Binary64) : Scientific :=
  if x.significand = 0 then { digits := ['0'], exponent := 0 }
  else
    let e := x.leadingExponent
    let grids := (List.range 17).map fun n => e - Int.ofNat n
    match grids.findSome? fun k => (x.onGrid? k).map fun n => scientific n k with
    | some d => d
    | none => scientific (x.units * Nat.pow 5 1074) (-1074)

end Binary64

end SqlDraft
