import HeuristicEvolution.Decimal.Binary

/-!
# Decimal texts of doubles

`shortest` finds the fewest digits that read back as the double: of the grids of multiples of
powers of ten, the coarsest one that has a point in the interval of reals that round to the
double, and there the point nearest to it. `Style` says how digits are laid out; `fixedPlaces`
rounds to a number of places instead.

## Main definitions

* `shortest`: digits and exponent of a positive finite double.
* `Style.write`: the text of a double in a style.
* `fixedPlaces`: the text with a fixed number of places.
-/

namespace HeuristicEvolution.Decimal

/-- The point of the grid of multiples of `10 ^ k` that lies in the interval of `m · 2 ^ e`, and
of two such points the nearer one. All sides are compared after clearing denominators. -/
def gridPoint? (m : Nat) (e : Int) (k : Int) : Option Nat :=
  -- the point `d · 10 ^ k` against the real `x · 2 ^ (e - 2)`: `d * point` against `x * real`
  let point := Nat.pow 10 k.toNat * Nat.pow 2 (2 - e).toNat
  let real := Nat.pow 2 (e - 2).toNat * Nat.pow 10 (-k).toNat
  let value := 4 * m * real
  let low := (if m = Nat.pow 2 52 && e ≠ -1074 then 4 * m - 1 else 4 * m - 2) * real
  let high := (4 * m + 2) * real
  let inside (d : Nat) : Bool :=
    if m % 2 = 0 then low ≤ d * point && d * point ≤ high
    else low < d * point && d * point < high
  let d := value / point
  match inside d, inside (d + 1) with
  | true, true =>
    let below := value - d * point
    let above := (d + 1) * point - value
    if below < above then some d
    else if above < below then some (d + 1)
    else if d % 2 = 0 then some d else some (d + 1)
  | true, false => some d
  | false, true => some (d + 1)
  | false, false => none

/-- The first grid with a point in the interval, from `10 ^ k` down to finer ones. -/
def findGrid (m : Nat) (e : Int) : (steps : Nat) → (k : Int) → Nat × Int
  | 0, _ => (m, 0)
  | steps + 1, k =>
    match gridPoint? m e k with
    | some d => (d, k)
    | none => findGrid m e steps (k - 1)

/-- A number without the zeros at its end, and their count. -/
def dropZeros (d : Nat) : Nat × Nat :=
  if h : d ≠ 0 ∧ d % 10 = 0 then
    have : d / 10 < d := Nat.div_lt_self (Nat.pos_of_ne_zero h.1) (by decide)
    let (d', n) := dropZeros (d / 10)
    (d', n + 1)
  else (d, 0)
termination_by d

/-- The fewest digits `d` and the exponent `k` such that `d · 10 ^ k` reads back as the positive
number `m · 2 ^ e`. A double has at most 17 digits, and the search starts at most two grids above
the leading one. -/
def shortest (m : Nat) (e : Int) : Nat × Int :=
  let start := (Int.ofNat m.log2 + 1 + e) * 30103 / 100000 + 2
  let (d, k) := findGrid m e 24 start
  let (d, zeros) := dropZeros d
  (d, k + Int.ofNat zeros)

/-! ## Layout -/

/-- The layout of a decimal: which exponents of the leading digit are written positionally, and
how whole numbers and exponents look. -/
structure Style where
  leastPositional : Int
  mostPositional : Int
  /-- A whole number written positionally ends in `.0`. -/
  pointZero : Bool
  /-- An exponent that is not negative has a sign. -/
  signedExponent : Bool

/-- Digits with a decimal point after the first `point` of them, zeros filling up either side. -/
def Style.positional (style : Style) (digits : List Char) (point : Int) : List Char :=
  if point ≤ 0 then '0' :: '.' :: List.replicate (-point).toNat '0' ++ digits
  else if digits.length ≤ point then
    digits ++ List.replicate (point.toNat - digits.length) '0'
      ++ (if style.pointZero then ['.', '0'] else [])
  else digits.take point.toNat ++ '.' :: digits.drop point.toNat

/-- One digit, the others behind a point, and the exponent. -/
def Style.scientific (style : Style) (digits : List Char) (exponent : Int) : List Char :=
  digits.take 1 ++ (if digits.length ≤ 1 then [] else '.' :: digits.drop 1) ++ ['e']
    ++ (if 0 ≤ exponent && style.signedExponent then ['+'] else [])
    ++ (toString exponent).toList

/-- The text of a double with the fewest digits that read back. -/
def Style.write (style : Style) (x : Float) : String :=
  match Binary.ofFloat? x with
  | none => if x.isNaN then "NaN" else if x < 0 then "-inf" else "inf"
  | some v =>
    let body :=
      if v.mantissa = 0 then style.positional ['0'] 1
      else
        let (d, k) := shortest v.mantissa v.exponent
        let digits := (Nat.repr d).toList
        let lead := k + Int.ofNat digits.length - 1
        if style.leastPositional ≤ lead && lead ≤ style.mostPositional then
          style.positional digits (lead + 1)
        else style.scientific digits lead
    String.ofList (if v.negative then '-' :: body else body)

/-- Numbers of data: positional from `1e-5` up to below `1e16`. -/
def dataStyle : Style := ⟨-5, 15, true, true⟩

/-- Numbers listed in a message: positional from `1e-4` up to below `1e16`, a whole number being
marked as a measured one by its `.0`. -/
def listedStyle : Style := ⟨-4, 15, true, false⟩

/-- A number quoted in a sentence is always positional, and a whole one has no point. -/
def plainStyle : Style := ⟨-400, 400, false, false⟩

/-! ## Fixed places -/

/-- The text with `places` digits behind the point, `0 < places`; the exact value is rounded, and
a half goes to the even neighbour. The sign of a negative number is kept even if only zeros are
left. -/
def fixedPlaces (places : Nat) (x : Float) : String :=
  match Binary.ofFloat? x with
  | none => if x.isNaN then "NaN" else if x < 0 then "-inf" else "inf"
  | some v =>
    let scaled := Binary.roundDiv (v.mantissa * Nat.pow 2 v.exponent.toNat * Nat.pow 10 places)
      (Nat.pow 2 (-v.exponent).toNat)
    let digits := (Nat.repr scaled).toList
    let digits := List.replicate (places + 1 - digits.length) '0' ++ digits
    let whole := digits.length - places
    String.ofList ((if v.negative then ['-'] else [])
      ++ digits.take whole ++ '.' :: digits.drop whole)

end HeuristicEvolution.Decimal
