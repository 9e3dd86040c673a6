/-
  SqlDraft.Decimal.Style — how a decimal is written: with a point among its digits, or
  with one digit before the point and an exponent.
-/

import SqlDraft.Decimal.Shortest

namespace SqlDraft.Decimal

/-- Decimals whose first digit has an exponent from `lowest` to `highest` are positional
    and always have a fraction. All others are scientific: a fraction only if there is a
    second digit, and an exponent with a sign. -/
structure Style where
  lowest : Int
  highest : Int
  deriving DecidableEq, Repr

/-- The digits with the point `exponent + 1` places after the first, zeros filling up. -/
def positional (x : Scientific) : List Char :=
  if x.exponent < 0 then
    '0' :: '.' :: (List.replicate (-x.exponent - 1).toNat '0' ++ x.digits)
  else
    let places := x.exponent.toNat + 1
    let fraction := x.digits.drop places
    x.digits.take places ++ List.replicate (places - x.digits.length) '0' ++ '.' ::
      if fraction.isEmpty then ['0'] else fraction

def exponential (x : Scientific) : List Char :=
  let mantissa := match x.digits with
    | d :: e :: ds => d :: '.' :: e :: ds
    | ds => ds
  mantissa ++ 'e' :: (if x.exponent < 0 then '-' else '+') :: Nat.toDigits 10 x.exponent.natAbs

def Style.spell (s : Style) (x : Scientific) : List Char :=
  if s.lowest ≤ x.exponent ∧ x.exponent ≤ s.highest then positional x else exponential x

end SqlDraft.Decimal
