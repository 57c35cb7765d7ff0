/-!
# Binary floating point

The numbers of the 64-bit binary format as exact values: a finite number is its sign, an integer
below `2 ^ 53` and a power of two.  `Binary64.ofDecimal` rounds a decimal to the nearest of them,
a tie to the one with an even integer; what is too large becomes infinite.
-/

namespace Marginalia

/-- A number of the 64-bit binary format. -/
inductive Binary64 where
  | nan
  | infinite (negative : Bool)
  /-- The number `± mantissa * 2 ^ exponent`. -/
  | finite (negative : Bool) (mantissa : Nat) (exponent : Int)
deriving DecidableEq, Inhabited

namespace Binary64

/-- Divides and rounds to the nearest integer, a tie to the even one. -/
def roundDiv (num den : Nat) : Nat :=
  let quotient := num / den
  let twice := 2 * (num % den)
  if twice < den || (twice == den && quotient % 2 == 0) then quotient else quotient + 1

/-- The integer that `num / den` rounds to in units of `2 ^ exponent`. -/
def scaled (num den : Nat) (exponent : Int) : Nat :=
  if 0 ≤ exponent then roundDiv num (den * Nat.pow 2 exponent.toNat)
  else roundDiv (num * Nat.pow 2 (-exponent).toNat) den

/-- What mantissas lie below: two to the power of 53. -/
def mantissaBound : Nat := 9007199254740992

/-- The smallest exponent. -/
def leastExponent : Int := -1074

/-- The exponent of the units in which a positive quotient has 53 binary digits, or fewer where
the format has no smaller units. -/
def exponentFor (num den : Nat) : Int :=
  let guess : Int := (num.log2 : Int) - den.log2 - 53
  let fits (e : Int) : Bool :=
    if 0 ≤ e then num < den * Nat.pow 2 e.toNat * mantissaBound
    else num * Nat.pow 2 (-e).toNat < den * mantissaBound
  max leastExponent (if fits guess then guess else guess + 1)

/-- The number nearest to a positive quotient. -/
def ofQuotient (negative : Bool) (num den : Nat) : Binary64 :=
  let exponent := exponentFor num den
  let mantissa := scaled num den exponent
  if 971 < exponent || (exponent == 971 && mantissaBound ≤ mantissa) then infinite negative
  else finite negative mantissa exponent

/-- The number nearest to `± digits * 10 ^ power`. -/
def ofDecimal (negative : Bool) (digits : Nat) (power : Int) : Binary64 :=
  let magnitude : Int := (Nat.toDigits 10 digits).length + power
  if digits = 0 || magnitude < -330 then finite negative 0 0
  else if 330 < magnitude then infinite negative
  else if 0 ≤ power then ofQuotient negative (digits * Nat.pow 10 power.toNat) 1
  else ofQuotient negative digits (Nat.pow 10 (-power).toNat)

/-- The integer that a number is, if it is one. -/
def toInt? : Binary64 → Option Int
  | finite negative mantissa exponent =>
    let sign (n : Nat) : Int := if negative then -(n : Int) else n
    if 0 ≤ exponent then some (sign (mantissa * Nat.pow 2 exponent.toNat))
    else
      let unit := Nat.pow 2 (-exponent).toNat
      if mantissa % unit = 0 then some (sign (mantissa / unit)) else none
  | _ => none

/-- Whether a number is neither infinite nor undefined. -/
def isFinite : Binary64 → Bool
  | finite .. => true
  | _ => false

end Binary64

end Marginalia
