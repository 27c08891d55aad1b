import HeuristicEvolution.Decimal.Read
import HeuristicEvolution.Json.Basic

/-!
# Reading JSON

One value with blanks around it and nothing behind it. Values that nest too deep are refused.
Integers that fit 64 bits keep their kind, all other numerals become doubles. `parseRaw?` keeps
the members of an object as they are written, `parse?` puts them into ascending order, of equal
names the last one.

A double is read in the arithmetic of doubles: the significant digits as one 64-bit number, from
which digits that do not fit are cut off, times or over a power of ten. For numerals of up to
fifteen digits and small exponents that is the nearest double.

## Main definitions

* `Json.parse?`: the value of a text.
* `Json.parseRaw?`: the same with all members in the order of the text.
-/

namespace HeuristicEvolution.Json

/-- The blanks of the format. -/
def isSpace (c : Char) : Bool := c = ' ' || c = '\n' || c = '\t' || c = '\r'

/-- A text without the blanks at its head. -/
def skipSpace (cs : List Char) : List Char := cs.dropWhile isSpace

/-! ## Numbers -/

/-- The significant digits as far as they fit 64 bits: a number and the count of its digits.
Reading stops for good at the first digit that does not fit. -/
def fitDigits : (n : Nat) → (count : Nat) → List Char → Nat × Nat
  | n, count, [] => (n, count)
  | n, count, c :: cs =>
    let n' := 10 * n + (c.toNat - '0'.toNat)
    if n' < Nat.pow 2 64 then fitDigits n' (count + 1) cs else (n, count)

/-- The power of ten as a double. -/
def powerOfTen (n : Nat) : Float := Binary.ofDecimal 1 (Int.ofNat n)

/-- A 64-bit number times a power of ten, in the arithmetic of doubles; there is none past the
largest double. Exponents below `-308` are worked off in two divisions. -/
def scale? (significand : Nat) (exponent : Int) : Option Float :=
  let x := Binary.ofNat significand
  if significand = 0 then some x
  else if 308 < exponent then none
  else if 0 ≤ exponent then
    let y := x * powerOfTen exponent.toNat
    if y.isFinite then some y else none
  else if -308 ≤ exponent then some (x / powerOfTen (-exponent).toNat)
  else if -616 ≤ exponent then
    some (x / powerOfTen 308 / powerOfTen (-exponent - 308).toNat)
  else some (Binary.ofNat 0)

/-- A number from its sign, whole digits, digits behind the point and exponent. -/
def number (negative : Bool) (whole places : List Char) (exponent : Option Int) : Option Json :=
  let signed (x : Float) : Json := .float (if negative then -x else x)
  let (n, count) := fitDigits 0 0 whole
  if places.isEmpty && exponent.isNone then
    if count < whole.length then (scale? n (Int.ofNat (whole.length - count))).map signed
    else if !negative then some (.int (Int.ofNat n))
    else if n = 0 || Nat.pow 2 63 < n then some (signed (Binary.ofNat n))
    else some (.int (-Int.ofNat n))
  else
    let (m, e) : Nat × Int :=
      if count < whole.length then
        -- digits behind the point still enter as long as they fit
        let (m, count') := fitDigits n 0 places
        (m, Int.ofNat (whole.length - count) - Int.ofNat count')
      else
        let (m, count') := fitDigits n 0 places
        (m, -Int.ofNat count')
    (scale? m (e + exponent.getD 0)).map signed

/-- The exponent at the head of a text, if one stands there, and the rest. A mark without digits
is refused. -/
def exponentAt : List Char → Option (Option Int × List Char)
  | [] => some (none, [])
  | c :: cs =>
    if c = 'e' || c = 'E' then
      let (negative, ds) := Decimal.splitSign cs
      let digits := ds.takeWhile Char.isDigit
      if digits.isEmpty then none
      else
        let e := Int.ofNat (Decimal.ofDigits digits)
        some (some (if negative then -e else e), ds.dropWhile Char.isDigit)
    else some (none, c :: cs)

/-- The number at the head of a text, and the rest. Whole digits have no leading zero, and at
least one digit follows a point. -/
def numberAt (cs : List Char) : Option (Json × List Char) :=
  let (negative, cs) :=
    match cs with
    | '-' :: rest => (true, rest)
    | _ => (false, cs)
  let (whole, rest) :=
    match cs with
    | '0' :: rest => (['0'], rest)
    | _ => (cs.takeWhile Char.isDigit, cs.dropWhile Char.isDigit)
  let leadingZero := whole = ['0'] && (rest.head?.map Char.isDigit).getD false
  if whole.isEmpty || leadingZero then none
  else
    match rest with
    | '.' :: more =>
      let places := more.takeWhile Char.isDigit
      if places.isEmpty then none
      else
        (exponentAt (more.dropWhile Char.isDigit)).bind fun (e, tail) =>
          (number negative whole places e).map fun v => (v, tail)
    | _ =>
      (exponentAt rest).bind fun (e, tail) =>
        (number negative whole [] e).map fun v => (v, tail)

/-! ## Texts -/

/-- The value of a hexadecimal digit. -/
def hexDigit? (c : Char) : Option Nat :=
  if c.isDigit then some (c.toNat - '0'.toNat)
  else if 'a' ≤ c && c ≤ 'f' then some (c.toNat - 'a'.toNat + 10)
  else if 'A' ≤ c && c ≤ 'F' then some (c.toNat - 'A'.toNat + 10)
  else none

/-- The value of four hexadecimal digits. -/
def unit? (a b c d : Char) : Option Nat := do
  let a ← hexDigit? a
  let b ← hexDigit? b
  let c ← hexDigit? c
  let d ← hexDigit? d
  return ((a * 16 + b) * 16 + c) * 16 + d

/-- The character of an escape of one letter. -/
def shortEscape? (c : Char) : Option Char :=
  if c = '"' || c = '\\' || c = '/' then some c
  else if c = 'b' then some (Char.ofNat 8)
  else if c = 'f' then some (Char.ofNat 12)
  else if c = 'n' then some '\n'
  else if c = 'r' then some '\r'
  else if c = 't' then some '\t'
  else none

/-- The text up to the closing quote, and the rest. Control characters and halves of surrogate
pairs are refused. -/
def textAt : List Char → Option (List Char × List Char)
  | [] => none
  | '"' :: rest => some ([], rest)
  | '\\' :: 'u' :: a :: b :: c :: d :: rest =>
    match unit? a b c d with
    | none => none
    | some u =>
      if 0xDC00 ≤ u && u ≤ 0xDFFF then none
      else if 0xD800 ≤ u && u ≤ 0xDBFF then
        match rest with
        | '\\' :: 'u' :: e :: f :: g :: h :: rest =>
          match unit? e f g h with
          | none => none
          | some v =>
            if 0xDC00 ≤ v && v ≤ 0xDFFF then
              let point := 0x10000 + (u - 0xD800) * 0x400 + (v - 0xDC00)
              (textAt rest).map fun (s, tail) => (Char.ofNat point :: s, tail)
            else none
        | _ => none
      else (textAt rest).map fun (s, tail) => (Char.ofNat u :: s, tail)
  | '\\' :: c :: rest =>
    match shortEscape? c with
    | none => none
    | some e => (textAt rest).map fun (s, tail) => (e :: s, tail)
  | c :: rest =>
    if c.toNat < 32 || c = '\\' then none
    else (textAt rest).map fun (s, tail) => (c :: s, tail)

/-! ## Values -/

/-- The word at the head of a text, and the rest. -/
def wordAt (word : String) (v : Json) (cs : List Char) : Option (Json × List Char) :=
  if word.toList.isPrefixOf cs then some (v, cs.drop word.length) else none

mutual

/-- The value at the head of a text, and the rest. `depth` levels may still be opened. -/
def valueAt : (fuel depth : Nat) → List Char → Option (Json × List Char)
  | 0, _, _ => none
  | fuel + 1, depth, cs =>
    match skipSpace cs with
    | [] => none
    | '"' :: rest => (textAt rest).map fun (s, tail) => (.str (String.ofList s), tail)
    | '[' :: rest =>
      match depth with
      | 0 => none
      | depth + 1 =>
        match skipSpace rest with
        | ']' :: tail => some (.arr [], tail)
        | _ => (elemsAt fuel depth rest).map fun (xs, tail) => (.arr xs, tail)
    | '\x7b' :: rest =>
      match depth with
      | 0 => none
      | depth + 1 =>
        match skipSpace rest with
        | '\x7d' :: tail => some (.obj [], tail)
        | _ => (membersAt fuel depth rest).map fun (ms, tail) => (.obj ms, tail)
    | c :: rest =>
      if c = '-' || c.isDigit then numberAt (c :: rest)
      else if c = 'n' then wordAt "null" .null (c :: rest)
      else if c = 't' then wordAt "true" (.bool true) (c :: rest)
      else if c = 'f' then wordAt "false" (.bool false) (c :: rest)
      else none

/-- Elements up to the closing bracket, at least one. -/
def elemsAt : (fuel depth : Nat) → List Char → Option (List Json × List Char)
  | 0, _, _ => none
  | fuel + 1, depth, cs =>
    match valueAt fuel depth cs with
    | none => none
    | some (v, rest) =>
      match skipSpace rest with
      | ',' :: more => (elemsAt fuel depth more).map fun (vs, tail) => (v :: vs, tail)
      | ']' :: tail => some ([v], tail)
      | _ => none

/-- Members up to the closing brace, at least one. -/
def membersAt : (fuel depth : Nat) → List Char → Option (List (String × Json) × List Char)
  | 0, _, _ => none
  | fuel + 1, depth, cs =>
    match skipSpace cs with
    | '"' :: rest =>
      match textAt rest with
      | none => none
      | some (k, rest) =>
        match skipSpace rest with
        | ':' :: rest =>
          match valueAt fuel depth rest with
          | none => none
          | some (v, rest) =>
            match skipSpace rest with
            | ',' :: more =>
              (membersAt fuel depth more).map fun (ms, tail) =>
                ((String.ofList k, v) :: ms, tail)
            | '\x7d' :: tail => some ([(String.ofList k, v)], tail)
            | _ => none
        | _ => none
    | _ => none

end

/-- The value that a text spells, with members as written. Each step of reading takes a character,
so twice the length of the text bounds the steps. -/
def parseRaw? (s : String) : Option Json :=
  let cs := s.toList
  match valueAt (2 * cs.length + 2) depthLimit cs with
  | some (v, rest) => if (skipSpace rest).isEmpty then some v else none
  | none => none

/-- The value that a text spells. -/
def parse? (s : String) : Option Json := (parseRaw? s).map sorted

end HeuristicEvolution.Json
