import Mathlib.Algebra.Order.Ring.Nat
import Mathlib.Data.Nat.Log

/-!
# Decimal and binary numbers

The finite values of a `float64`, as `strconv` reads them from decimals and writes them back. Every finite
value is a whole number of units of `2 ^ -1074`, the smallest one above zero, with at most 53 significant
bits. A decimal reads as the nearest such value, ties to even; a value is written with the fewest digits that
read back as it.
-/

namespace Leoflow.Lib

/-- `±digits · 10 ^ exp`. -/
structure Decimal where
  neg : Bool
  digits : Nat
  exp : Int
deriving DecidableEq

namespace Float64

/-- The unit is `2 ^ -unitExp`. -/
@[irreducible] def unitExp : Nat := 1074

/-- The bits of a magnitude beyond 53. -/
def shift (n : Nat) : Nat := n.log2 + 1 - 53

/-- The number has no bits below the precision. -/
def Fits (n : Nat) : Prop := 2 ^ shift n ∣ n

/-- The largest finite value, in units of the smallest. -/
def maxUnits : Nat := (2 ^ 53 - 1) * 2 ^ 2045

/-- The integer nearest to a fraction, ties to even. -/
def roundEven (num den : Nat) : Nat :=
  if 2 * (num % den) < den then num / den
  else if den < 2 * (num % den) then num / den + 1
  else num / den + num / den % 2

/-- A fraction rounded to 53 significant bits. -/
def roundBits (num den : Nat) : Nat :=
  roundEven num (den * 2 ^ shift (num / den)) * 2 ^ shift (num / den)

end Float64

open Float64 in
/-- A finite `float64`. -/
structure Float64 where
  neg : Bool
  units : Nat
  fits : Fits units
  finite : units ≤ maxUnits
deriving DecidableEq

namespace Float64

/-! ## Rounding -/

theorem roundEven_le (num den : Nat) : roundEven num den ≤ num / den + 1 := by
  unfold roundEven
  split
  · omega
  · split
    · omega
    · omega

theorem lt_two_pow_shift (n : Nat) : n < 2 ^ (53 + shift n) := by
  refine lt_of_lt_of_le Nat.lt_log2_self (Nat.pow_le_pow_right (by decide) ?_)
  unfold shift
  omega

theorem fits_of_le {m s : Nat} (h : m ≤ 2 ^ 53) : Fits (m * 2 ^ s) := by
  rcases Nat.lt_or_eq_of_le h with hlt | rfl
  · refine Dvd.dvd.mul_left (Nat.pow_dvd_pow 2 ?_) m
    rcases Nat.eq_zero_or_pos m with rfl | hpos
    · simp [shift]
    · have hprod : m * 2 ^ s < 2 ^ (53 + s) := by
        rw [Nat.pow_add]
        exact Nat.mul_lt_mul_of_pos_right hlt (Nat.two_pow_pos s)
      have hlog : (m * 2 ^ s).log2 < 53 + s :=
        (Nat.log2_lt (Nat.mul_pos hpos (Nat.two_pow_pos s)).ne').mpr hprod
      unfold shift
      omega
  · rw [Fits, ← Nat.pow_add]
    refine Nat.pow_dvd_pow 2 ?_
    rw [shift, Nat.log2_two_pow]
    omega

theorem fits_roundBits (num den : Nat) : Fits (roundBits num den) := by
  unfold roundBits
  apply fits_of_le
  -- the integer part has at most 53 bits, and rounding adds at most one
  have hint : num / (den * 2 ^ shift (num / den)) < 2 ^ 53 := by
    rw [← Nat.div_div_eq_div_mul, Nat.div_lt_iff_lt_mul (Nat.two_pow_pos _), ← Nat.pow_add]
    exact lt_two_pow_shift _
  exact le_trans (roundEven_le _ _) hint

/-! ## Reading -/

/-- A decimal as a fraction in units. -/
def num (d : Decimal) : Nat := d.digits * 10 ^ d.exp.toNat * 2 ^ unitExp

/-- The power of ten a decimal is divided by. -/
def den (d : Decimal) : Nat := 10 ^ (-d.exp).toNat

/-- `ParseFloat`, or its range error. -/
def ofDecimal (d : Decimal) : Option Float64 :=
  if h : roundBits (num d) (den d) ≤ maxUnits then
    some ⟨d.neg, roundBits (num d) (den d), fits_roundBits _ _, h⟩
  else none

/-- The decimal a number literal spells: a sign, an integer part, a fraction and an exponent. -/
def ofLiteral (literal : List Char) : Decimal :=
  let neg := literal.head? == some '-'
  let body := if neg then literal.tail else literal
  let int := body.takeWhile Char.isDigit
  let rest := body.dropWhile Char.isDigit
  let frac := if rest.head? = some '.' then rest.tail.takeWhile Char.isDigit else []
  let rest := if rest.head? = some '.' then rest.tail.dropWhile Char.isDigit else rest
  let exponent : Int :=
    match rest with
    | _ :: '-' :: digits => -(Nat.ofDigitChars 10 digits 0 : Int)
    | _ :: '+' :: digits => Nat.ofDigitChars 10 digits 0
    | _ :: digits => Nat.ofDigitChars 10 digits 0
    | [] => 0
  ⟨neg, Nat.ofDigitChars 10 (int ++ frac) 0, exponent - frac.length⟩

/-! ## Writing -/

/-- How many decimal digits a number has. -/
def digitCount (n : Nat) : Nat := (Nat.toDigits 10 n).length

/-- Where the decimal point stands: `10 ^ (p - 1) ≤ num / den < 10 ^ p`. -/
def pointAt (num den : Nat) : Int :=
  if den ≤ num then digitCount (num / den)
  else
    let zeros := digitCount (den / num) - 1
    if num * 10 ^ zeros = den then 1 - zeros else -zeros

/-- A decimal without trailing zeros; `fuel` bounds their number. -/
def trimZeros : (fuel : Nat) → Decimal → Decimal
  | 0, d => d
  | fuel + 1, d =>
    if d.digits ≠ 0 ∧ d.digits % 10 = 0 then trimZeros fuel ⟨d.neg, d.digits / 10, d.exp + 1⟩ else d

variable (f : Float64)

/-- The two decimals of a scale around a value, the nearer one first. -/
def neighbours (scale : Int) : List Decimal :=
  let num := f.units * 10 ^ (-scale).toNat
  let den := 2 ^ unitExp * 10 ^ scale.toNat
  let low : Decimal := ⟨f.neg, num / den, scale⟩
  let high : Decimal := ⟨f.neg, num / den + 1, scale⟩
  if roundEven num den = num / den then [low, high] else [high, low]

/-- The decimal of so many digits that reads back as the value, if there is one. -/
def withDigits (n : Nat) : Option Decimal :=
  ((neighbours f (pointAt f.units (2 ^ unitExp) - n)).map (trimZeros n)).find? fun d => ofDecimal d = some f

/-- All the digits of the value. -/
def exact : Decimal := ⟨f.neg, f.units * 5 ^ unitExp, -unitExp⟩

/-- The decimal with the fewest digits that reads back as the value. -/
def shortest : Decimal :=
  if f.units = 0 then ⟨f.neg, 0, 0⟩
  else ((List.range' 1 17).findSome? (withDigits f)).getD (exact f)

/-- The digits with a decimal point, as the `f` format has them. -/
def plainText (d : Decimal) : List Char :=
  let digits := Nat.toDigits 10 d.digits
  let point := digits.length + d.exp
  if 0 ≤ d.exp then digits ++ List.replicate d.exp.toNat '0'
  else if 0 < point then digits.take point.toNat ++ '.' :: digits.drop point.toNat
  else '0' :: '.' :: List.replicate (-point).toNat '0' ++ digits

/-- The digits with an exponent, as the `e` format has them once `encoding/json` has cleaned it up. -/
def exponentText (d : Decimal) : List Char :=
  let digits := Nat.toDigits 10 d.digits
  let exponent := digits.length + d.exp - 1
  digits.take 1 ++ (if digits.length = 1 then [] else '.' :: digits.drop 1) ++
    'e' :: (if exponent < 0 then '-' else '+') :: Nat.toDigits 10 exponent.natAbs

/-- The units of the constant `1e-6`, where the `e` format ends below. -/
def smallUnits : Nat := roundBits (num ⟨false, 1, -6⟩) (den ⟨false, 1, -6⟩)

/-- How `encoding/json` writes a number. -/
def text : List Char :=
  (if f.neg then ['-'] else []) ++
    if f.units ≠ 0 ∧ (f.units < smallUnits ∨ 10 ^ 21 * 2 ^ unitExp ≤ f.units) then exponentText (shortest f)
    else plainText (shortest f)

end Float64

end Leoflow.Lib
