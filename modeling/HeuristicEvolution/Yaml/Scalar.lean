import HeuristicEvolution.Decimal.Read
import HeuristicEvolution.Json.Basic

/-!
# Meanings of plain scalars

A plain scalar is null, a truth value, an integer, a float or a text. Integers are decimal, or
hexadecimal, octal or binary behind `0x`, `0o` and `0b`; a decimal one with a superfluous leading
zero is a text. Integers fit 64 bits, with or without a sign; longer ones have no meaning as long as
they fit 128 bits, and beyond that are floats. A float is finite or one of the words for infinity
and for what is no number.

## Main definitions

* `isNull`, `truth?`, `unsigned?`, `float?`: the single kinds.
* `plainValue?`: what a plain scalar means as a JSON value.
-/

namespace HeuristicEvolution.Yaml

/-- The words for null. -/
def isNull (s : String) : Bool := ["null", "Null", "NULL", "~"].contains s

/-- The truth value that a word stands for. -/
def truth? (s : String) : Option Bool :=
  if ["true", "True", "TRUE"].contains s then some true
  else if ["false", "False", "FALSE"].contains s then some false
  else none

/-- The value of a digit to a base. -/
def digitOf? (base : Nat) (c : Char) : Option Nat := do
  let d ←
    if c.isDigit then some (c.toNat - '0'.toNat)
    else if 'a' ≤ c && c ≤ 'f' then some (c.toNat - 'a'.toNat + 10)
    else if 'A' ≤ c && c ≤ 'F' then some (c.toNat - 'A'.toNat + 10)
    else none
  if d < base then some d else none

/-- The number that digits stand for; there is at least one. -/
def natural? (base : Nat) (cs : List Char) : Option Nat :=
  if cs.isEmpty then none
  else (cs.mapM (digitOf? base)).map fun ds => ds.foldl (fun n d => base * n + d) 0

/-- The prefixes of bases other than ten. -/
def bases : List (List Char × Nat) :=
  [(['0', 'x'], 16), (['0', 'o'], 8), (['0', 'b'], 2)]

/-- The text behind a prefix. -/
def behind? (head cs : List Char) : Option (List Char) :=
  if head.isPrefixOf cs then some (cs.drop head.length) else none

/-- The digits behind the prefix of a base stand for a number below the bound. -/
def based? (bound : Nat) (cs : List Char) : Option Nat :=
  bases.findSome? fun (head, base) => do
    let n ← natural? base (← behind? head cs)
    if n < bound then some n else none

/-- A sign stands at the head. -/
def signed (cs : List Char) : Bool := cs.head? = some '+' || cs.head? = some '-'

/-- The text without a plus sign at its head. -/
def dropPlus (cs : List Char) : List Char :=
  match cs with
  | '+' :: rest => rest
  | _ => cs

/-- Digits with a zero in front that a number would not have. -/
def zeroPadded (cs : List Char) : Bool :=
  let ds := if signed cs then cs.tail else cs
  1 < ds.length && ds.head? = some '0' && ds.all Char.isDigit

/-- The natural number below the bound that a text stands for; a plus sign may stand before it. -/
def unsigned? (bound : Nat) (cs : List Char) : Option Nat :=
  let ds := dropPlus cs
  match based? bound ds with
  | some n => some n
  | none =>
    if zeroPadded cs then none
    else (natural? 10 ds).filter (· < bound)

/-- The magnitude, up to the bound, of the number that a text with a minus sign stands for. -/
def negative? (bound : Nat) (cs : List Char) : Option Nat :=
  match cs with
  | '-' :: ds =>
    match based? (bound + 1) ds with
    | some n => some n
    | none => if zeroPadded cs then none else (natural? 10 ds).filter (· ≤ bound)
  | _ => none

/-- The float that a text stands for. -/
def float? (cs : List Char) : Option Float :=
  let ds := dropPlus cs
  if ds.length < cs.length && signed ds then none
  else
    let s := String.ofList cs
    let word := String.ofList ds
    if [".inf", ".Inf", ".INF"].contains word then some Decimal.infinity
    else if ["-.inf", "-.Inf", "-.INF"].contains s then some (-Decimal.infinity)
    else if [".nan", ".NaN", ".NAN"].contains s then some Decimal.notANumber
    else (Decimal.readFloat? word).filter Float.isFinite

/-- What a text means as an integer: nothing, or a value, which is missing if it does not fit. -/
def integer? (cs : List Char) : Option (Option Json) :=
  match unsigned? (Nat.pow 2 64) cs, negative? (Nat.pow 2 63) cs with
  | some n, _ => some (some (.ofNat n))
  | none, some n => some (some (.int (-Int.ofNat n)))
  | none, none =>
    if (unsigned? (Nat.pow 2 128) cs).isSome || (negative? (Nat.pow 2 127) cs).isSome then some none
    else none

/-- What a plain scalar means. There is no value for an integer that does not fit. -/
def plainValue? (s : String) : Option Json :=
  let cs := s.toList
  if s.isEmpty || isNull s then some .null
  else
    match truth? s with
    | some b => some (.bool b)
    | none =>
      match integer? cs with
      | some v => v
      | none =>
        if zeroPadded cs then some (.str s)
        else
          match float? cs with
          | some x => some (.ofFloat x)
          | none => some (.str s)

end HeuristicEvolution.Yaml
