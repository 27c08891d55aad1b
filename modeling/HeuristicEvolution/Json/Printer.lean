import HeuristicEvolution.Decimal.Shortest
import HeuristicEvolution.Json.Basic

/-!
# Writing JSON

The compact text has no blanks; the indented text has one member or element a line, two blanks a
level, and writes empty arrays and objects as `[]` and `{}`. Members are written in the order in
which the value holds them.
-/

namespace HeuristicEvolution.Json

/-- Four lower-case hexadecimal digits. -/
def hex4 (n : Nat) : List Char :=
  [n / 4096 % 16, n / 256 % 16, n / 16 % 16, n % 16].map Nat.digitChar

/-- A character of a quoted text: the quote, the backslash and control characters are escaped. -/
def escape (c : Char) : List Char :=
  if c = '"' then ['\\', '"']
  else if c = '\\' then ['\\', '\\']
  else if c = '\n' then ['\\', 'n']
  else if c = '\r' then ['\\', 'r']
  else if c = '\t' then ['\\', 't']
  else if c.toNat = 8 then ['\\', 'b']
  else if c.toNat = 12 then ['\\', 'f']
  else if c.toNat < 32 then '\\' :: 'u' :: hex4 c.toNat
  else [c]

/-- A text in quotes. -/
def quoted (s : String) : String :=
  String.ofList ('"' :: s.toList.flatMap escape ++ ['"'])

/-- The text of a value that has no parts. -/
def atom : Json → String
  | .null => "null"
  | .bool true => "true"
  | .bool false => "false"
  | .int i => toString i
  | .float x => if x.isFinite then Decimal.dataStyle.write x else "null"
  | .str s => quoted s
  | .arr _ => "[]"
  | .obj _ => "\x7b\x7d"

mutual

/-- The text without blanks. -/
def compact : Json → String
  | .arr xs => "[" ++ compactElems xs ++ "]"
  | .obj ms => "\x7b" ++ compactMembers ms ++ "\x7d"
  | v => atom v

/-- Elements separated by commas. -/
def compactElems : List Json → String
  | [] => ""
  | [x] => compact x
  | x :: rest => compact x ++ "," ++ compactElems rest

/-- Members separated by commas. -/
def compactMembers : List (String × Json) → String
  | [] => ""
  | [(k, v)] => quoted k ++ ":" ++ compact v
  | (k, v) :: rest => quoted k ++ ":" ++ compact v ++ "," ++ compactMembers rest

end

/-- A line break and the blanks of a level. -/
def lineAt (level : Nat) : String := String.ofList ('\n' :: List.replicate (2 * level) ' ')

mutual

/-- The indented text of a value whose first line is already placed at `level`. -/
def indented (level : Nat) : Json → String
  | .arr [] => "[]"
  | .arr xs => "[" ++ indentedElems (level + 1) xs ++ lineAt level ++ "]"
  | .obj [] => "\x7b\x7d"
  | .obj ms => "\x7b" ++ indentedMembers (level + 1) ms ++ lineAt level ++ "\x7d"
  | v => atom v

/-- Elements on lines of their own. -/
def indentedElems (level : Nat) : List Json → String
  | [] => ""
  | [x] => lineAt level ++ indented level x
  | x :: rest => lineAt level ++ indented level x ++ "," ++ indentedElems level rest

/-- Members on lines of their own. -/
def indentedMembers (level : Nat) : List (String × Json) → String
  | [] => ""
  | [(k, v)] => lineAt level ++ quoted k ++ ": " ++ indented level v
  | (k, v) :: rest =>
    lineAt level ++ quoted k ++ ": " ++ indented level v ++ "," ++ indentedMembers level rest

end

/-- The indented text of a value. -/
def pretty (j : Json) : String := indented 0 j

end HeuristicEvolution.Json
