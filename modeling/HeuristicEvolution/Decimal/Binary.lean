/-!
# Doubles as exact numbers

A finite double is `± m · 2 ^ e` with natural `m`. Texts of numbers are made and read through
this form, in exact arithmetic, and never through the decimal conversions of the machine.

## Main definitions

* `Binary.ofFloat?`: the sign, `m` and `e` of a finite double.
* `Binary.ofRatio`: the double nearest to a fraction, an exact tie going to the even neighbour.
* `Binary.key`: an integer that orders the finite doubles as the doubles are ordered.
-/

namespace HeuristicEvolution

/-- The number `± mantissa · 2 ^ exponent`. -/
structure Binary where
  negative : Bool
  mantissa : Nat
  exponent : Int
  deriving DecidableEq, Repr

namespace Binary

/-- The value of a finite double; infinities and NaN have none. -/
def ofFloat? (x : Float) : Option Binary :=
  let bits := x.toBits.toNat
  let negative := Nat.pow 2 63 ≤ bits
  let field : Nat := bits / Nat.pow 2 52 % Nat.pow 2 11
  let fraction : Nat := bits % Nat.pow 2 52
  if field = Nat.pow 2 11 - 1 then none
  else if field = 0 then some ⟨negative, fraction, -1074⟩
  else some ⟨negative, Nat.pow 2 52 + fraction, Int.ofNat field - 1075⟩

/-- The quotient rounded to the nearest natural number, an exact half to the even one. -/
def roundDiv (num den : Nat) : Nat :=
  let q := num / den
  let r := num % den
  if 2 * r < den then q
  else if den < 2 * r then q + 1
  else if q % 2 = 0 then q else q + 1

/-- The double with the given mantissa below `2 ^ 53` and exponent, or infinity. The exponent is
the least one, or the mantissa has all its 53 bits. -/
def assemble (mantissa : Nat) (exponent : Int) : Float :=
  if 971 < exponent then Float.ofBits (UInt64.ofNat (0x7FF * Nat.pow 2 52))
  else if mantissa < Nat.pow 2 52 then Float.ofBits (UInt64.ofNat mantissa)
  else
    Float.ofBits (UInt64.ofNat ((exponent + 1075).toNat * Nat.pow 2 52 + (mantissa - Nat.pow 2 52)))

/-- The double nearest to `num / den`, where `0 < den`. -/
def ofRatio (num den : Nat) : Float :=
  if num = 0 then Float.ofBits 0
  else
    let guess : Int := Int.ofNat num.log2 - Int.ofNat den.log2 - 52
    let quotient (e : Int) : Nat × Nat := (num * Nat.pow 2 (-e).toNat, den * Nat.pow 2 e.toNat)
    let low := (quotient guess).1 / (quotient guess).2 < Nat.pow 2 52
    let e := max (-1074) (if low then guess - 1 else guess)
    let m := roundDiv (quotient e).1 (quotient e).2
    if m = Nat.pow 2 53 then assemble (Nat.pow 2 52) (e + 1) else assemble m e

/-- The double nearest to a natural number. -/
def ofNat (n : Nat) : Float := ofRatio n 1

/-- The double nearest to an integer. -/
def ofInt (i : Int) : Float := if i < 0 then -ofNat i.natAbs else ofNat i.natAbs

/-- The double nearest to `digits · 10 ^ exponent`. Exponents out of any double's reach are
settled by size, so that no text makes the powers large. -/
def ofDecimal (digits : Nat) (exponent : Int) : Float :=
  if digits = 0 then Float.ofBits 0
  else
    let size : Int := exponent + Int.ofNat (digits.log2 * 30103 / 100000)
    if size < -400 then Float.ofBits 0
    else if 400 < size then assemble 0 972
    else ofRatio (digits * Nat.pow 10 exponent.toNat) (Nat.pow 10 (-exponent).toNat)

/-- An order key: the bits of the magnitude, negated below zero. Both zeros have key `0`. -/
def key (x : Float) : Int :=
  let bits := x.toBits.toNat
  if Nat.pow 2 63 ≤ bits then -Int.ofNat (bits - Nat.pow 2 63) else Int.ofNat bits

/-- The same double, with the sign of a negative zero taken away. -/
def dropZeroSign (x : Float) : Float := if key x = 0 then Float.ofBits 0 else x

/-- A key for the total order of doubles: as `key`, but the negative zero goes before the positive
one. -/
def totalKey (x : Float) : Int :=
  let bits := x.toBits.toNat
  if bits < Nat.pow 2 63 then Int.ofNat bits else -Int.ofNat (bits - Nat.pow 2 63) - 1

/-- The greatest finite double. -/
def greatest : Float := Float.ofBits 0x7FEFFFFFFFFFFFFF

end Binary

end HeuristicEvolution
