/-!
# Decoding bytes

What a command prints is bytes. Bytes that are not UTF-8 are replaced by `U+FFFD`: one for each
longest run that begins like the encoding of a character and is broken off, and one for each byte
that begins nothing.

## Main definitions

* `decodeLossy`: bytes as text.
* `decode?`: bytes as text if all of them are UTF-8.
-/

namespace HeuristicEvolution.Text

/-- The range that the second byte of a character must have after the given first byte, and the
number of bytes that follow the first; `none` when the byte begins no character. -/
def leadByte? (b : UInt8) : Option (Nat × UInt8 × UInt8) :=
  if b < 0x80 then some (0, 0x80, 0xBF)
  else if 0xC2 ≤ b && b ≤ 0xDF then some (1, 0x80, 0xBF)
  else if b = 0xE0 then some (2, 0xA0, 0xBF)
  else if b = 0xED then some (2, 0x80, 0x9F)
  else if 0xE1 ≤ b && b ≤ 0xEF then some (2, 0x80, 0xBF)
  else if b = 0xF0 then some (3, 0x90, 0xBF)
  else if 0xF1 ≤ b && b ≤ 0xF3 then some (3, 0x80, 0xBF)
  else if b = 0xF4 then some (3, 0x80, 0x8F)
  else none

/-- How many bytes at the head of the text go on a character of which `left` bytes are missing;
the next one has to lie between `lo` and `hi`. -/
def runLength : (left : Nat) → (lo hi : UInt8) → List UInt8 → Nat
  | 0, _, _, _ => 0
  | _, _, _, [] => 0
  | left + 1, lo, hi, b :: bs =>
    if lo ≤ b && b ≤ hi then 1 + runLength left 0x80 0xBF bs else 0

/-- The code point of a first byte and the bytes that go on it. -/
def codePoint (first : UInt8) (rest : List UInt8) : Nat :=
  let head := match rest.length with
    | 0 => first.toNat
    | 1 => first.toNat % 32
    | 2 => first.toNat % 16
    | _ => first.toNat % 8
  rest.foldl (fun n b => n * 64 + b.toNat % 64) head

/-- What stands at the head of some bytes: a character, or `none` for bytes that are to be
replaced, with the number of bytes that it takes beyond the first. -/
def headChar (b : UInt8) (bs : List UInt8) : Option Char × Nat :=
  match leadByte? b with
  | none => (none, 0)
  | some (more, lo, hi) =>
    let n := runLength more lo hi bs
    if n = more then (some (Char.ofNat (codePoint b (bs.take n))), n) else (none, n)

/-- Each character, or `none` where bytes are to be replaced. -/
def decodeChars : List UInt8 → List (Option Char)
  | [] => []
  | b :: bs =>
    (headChar b bs).1 :: decodeChars (bs.drop (headChar b bs).2)
termination_by bytes => bytes.length
decreasing_by simp only [List.length_drop, List.length_cons]; omega

/-- Bytes as text, with replacements. -/
def decodeLossy (bytes : List UInt8) : String :=
  String.ofList ((decodeChars bytes).map fun c => c.getD (Char.ofNat 0xFFFD))

/-- Bytes as text, if they are UTF-8. -/
def decode? (bytes : List UInt8) : Option String :=
  ((decodeChars bytes).mapM id).map String.ofList

end HeuristicEvolution.Text
