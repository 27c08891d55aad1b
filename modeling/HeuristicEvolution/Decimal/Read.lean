import HeuristicEvolution.Decimal.Binary

/-!
# Reading decimals

The numerals of measured texts: an optional sign, digits with at most one point and at least one
digit, an optional exponent; or a spelled infinity or NaN in any case. A numeral stands for the
double nearest to it.

## Main definitions

* `Numeral.ofList?`: the parts of a numeral.
* `readFloat?`: the double that a text stands for.
-/

namespace HeuristicEvolution.Decimal

/-- An unsigned numeral: the number `digits · 10 ^ exponent`. -/
structure Numeral where
  digits : Nat
  exponent : Int
  deriving DecidableEq, Repr

/-- The number that a list of digits spells. -/
def ofDigits (cs : List Char) : Nat := cs.foldl (fun n c => 10 * n + (c.toNat - '0'.toNat)) 0

/-- A sign, and the text behind it. -/
def splitSign : List Char → Bool × List Char
  | '-' :: cs => (true, cs)
  | '+' :: cs => (false, cs)
  | cs => (false, cs)

/-- The exponent that ends a numeral: `e` or `E`, an optional sign and at least one digit. -/
def exponent? : List Char → Option Int
  | [] => some 0
  | c :: cs =>
    if c = 'e' || c = 'E' then
      let (negative, ds) := splitSign cs
      if !ds.isEmpty && ds.all Char.isDigit then
        some (if negative then -Int.ofNat (ofDigits ds) else Int.ofNat (ofDigits ds))
      else none
    else none

/-- The parts of a numeral without sign. -/
def Numeral.ofList? (cs : List Char) : Option Numeral :=
  let whole := cs.takeWhile Char.isDigit
  let rest := cs.dropWhile Char.isDigit
  let (places, tail) :=
    match rest with
    | '.' :: more => (more.takeWhile Char.isDigit, more.dropWhile Char.isDigit)
    | _ => ([], rest)
  if whole.isEmpty && places.isEmpty then none
  else (exponent? tail).map fun e => ⟨ofDigits (whole ++ places), e - Int.ofNat places.length⟩

/-- The double nearest to a numeral. -/
def Numeral.toFloat (n : Numeral) : Float := Binary.ofDecimal n.digits n.exponent

/-- Positive infinity. -/
def infinity : Float := Float.ofBits 0x7FF0000000000000

/-- The double that is no number. -/
def notANumber : Float := Float.ofBits 0x7FF8000000000000

/-- The double that a text stands for, if it stands for one. -/
def readFloat? (s : String) : Option Float :=
  let (negative, cs) := splitSign s.toList
  let magnitude :=
    match (Numeral.ofList? cs).map Numeral.toFloat with
    | some x => some x
    | none =>
      let word := String.ofList (cs.map Char.toLower)
      if word = "inf" || word = "infinity" then some infinity
      else if word = "nan" then some notANumber
      else none
  magnitude.map fun x => if negative then -x else x

end HeuristicEvolution.Decimal
