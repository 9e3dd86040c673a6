/-
  SqlDraft.Json.Number — JSON numbers. A numeral without point and exponent whose value
  fits 64 bits, signed or unsigned, is that integer; every other numeral is a double, the
  negative zero among them, of which the leading digits that fit 64 bits are read. An
  integer is written by its digits and a double by its shortest ones.
-/

import SqlDraft.Decimal.Style

namespace SqlDraft

/-- A numeral as it is written. -/
structure Numeral where
  negative : Bool
  whole : List Char
  fraction : Option (List Char)
  exponent : Option Int
  deriving DecidableEq, Repr

namespace Numeral

/-- A non-empty run of digits and what follows it. -/
def digits? (cs : List Char) : Option (List Char × List Char) :=
  match cs.takeWhile Char.isDigit with
  | [] => none
  | ds => some (ds, cs.dropWhile Char.isDigit)

/-- Digits without a needless leading zero, and what follows them. -/
def whole? (cs : List Char) : Option (List Char × List Char) :=
  match digits? cs with
  | some ('0' :: _ :: _, _) => none
  | read => read

def fraction? : List Char → Option (Option (List Char) × List Char)
  | '.' :: cs => (digits? cs).map fun (ds, rest) => (some ds, rest)
  | cs => some (none, cs)

/-- The exponent that ends a numeral, if there is one. -/
def exponent? : List Char → Option (Option Int)
  | [] => some none
  | e :: cs =>
    if e = 'e' ∨ e = 'E' then
      let (negative, cs) := match cs with
        | '-' :: cs => (true, cs)
        | '+' :: cs => (false, cs)
        | cs => (false, cs)
      match digits? cs with
      | some (ds, []) =>
        let n : Int := Nat.ofDigitChars 10 ds 0
        some (some (if negative then -n else n))
      | _ => none
    else none

/-- Reads a numeral that is all of `cs`. -/
def ofChars? (cs : List Char) : Option Numeral := do
  let (negative, cs) := match cs with
    | '-' :: cs => (true, cs)
    | cs => (false, cs)
  let (whole, cs) ← whole? cs
  let (fraction, cs) ← fraction? cs
  let exponent ← exponent? cs
  return { negative, whole, fraction, exponent }

/-- What a significand stays below: it fits a word of 64 bits. -/
def wordBound : Nat := Nat.pow 2 64

/-- Appends digits to `n` up to the first that takes it past a word, and counts those from
    there on. -/
def appendDigits (n : Nat) : List Char → Nat × Nat
  | [] => (n, 0)
  | c :: cs =>
    let next := Nat.ofDigitChars 10 [c] n
    if next < wordBound then appendDigits next cs else (n, cs.length + 1)

/-- The significand and the exponent of the power of ten it stands for. Of the whole part
    and of the fraction the leading digits are kept that fit a word; the others of the whole
    part count as zeros. -/
def scaled (n : Numeral) : Nat × Int :=
  let fraction := n.fraction.getD []
  let (whole, dropped) := appendDigits 0 n.whole
  let (significand, ignored) := appendDigits whole fraction
  (significand, n.exponent.getD 0 + dropped - (fraction.length - ignored : Nat))

end Numeral

inductive Number where
  | integer (value : Int)
  | double (value : Binary64)
  deriving DecidableEq, Repr

namespace Number

/-- The value of a numeral, unless it is beyond the greatest double. -/
def ofNumeral? (n : Numeral) : Option Number :=
  let whole := Nat.ofDigitChars 10 n.whole 0
  let isInteger := n.fraction.isNone && n.exponent.isNone
  if isInteger ∧ n.negative = false ∧ whole < Numeral.wordBound then some (.integer whole)
  else if isInteger ∧ n.negative = true ∧ 0 < whole ∧ whole ≤ Nat.pow 2 63 then some (.integer (-whole))
  else (Binary64.ofDecimal? n.negative n.scaled.1 n.scaled.2).map .double

/-- Doubles are positional from `0.00001` to below `10 ^ 16`. -/
def style : Decimal.Style := { lowest := -5, highest := 15 }

def spell : Number → List Char
  | .integer n => if n < 0 then '-' :: Nat.toDigits 10 n.natAbs else Nat.toDigits 10 n.natAbs
  | .double x => if x.negative then '-' :: style.spell x.shortest else style.spell x.shortest

end Number

end SqlDraft
