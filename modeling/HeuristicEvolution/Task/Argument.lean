import HeuristicEvolution.Json.Printer
import HeuristicEvolution.Text.Quoted

/-!
# Task arguments

The arguments of a task are an object whose members set fields of a structure; fields that are not
set keep their defaults. Members are looked at in ascending order of their names, and the first
fault is reported. An array sets the fields in the order of the structure.

## Main definitions

* `ArgumentFault`, `ArgumentFault.message`: what may be wrong, and its wording.
* `Argument`, `Argument.readAll`: a field and the reading of all of them.
-/

namespace HeuristicEvolution

/-- What may be wrong with arguments. -/
inductive ArgumentFault where
  | unknownField (name : String) (known : List String)
  | wrongType (found : Json) (expected : String)
  /-- The number is of the right kind but does not fit. -/
  | wrongValue (found : Int) (expected : String)
  | tooMany (count : Nat)
  deriving Inhabited

namespace ArgumentFault

/-- What a value is, in a message. -/
def describe : Json → String
  | .null => "null"
  | .bool b => "boolean \x60" ++ toString b ++ "\x60"
  | .int i => "integer \x60" ++ toString i ++ "\x60"
  | .float x => "floating point \x60" ++ Decimal.dataStyle.write x ++ "\x60"
  | .str s => "string " ++ Text.quoted s
  | .arr _ => "sequence"
  | .obj _ => "map"

/-- The known fields of a message. There are always several. -/
def alternatives (known : List String) : String :=
  ", ".intercalate (known.map fun name => "\x60" ++ name ++ "\x60")

/-- The wording of a fault. -/
def message : ArgumentFault → String
  | .unknownField name known =>
    "unknown field \x60" ++ name ++ "\x60, expected one of " ++ alternatives known
  | .wrongType found expected => "invalid type: " ++ describe found ++ ", expected " ++ expected
  | .wrongValue found expected =>
    "invalid value: " ++ describe (.int found) ++ ", expected " ++ expected
  | .tooMany count =>
    "invalid length " ++ toString count ++ ", expected fewer elements in array"

end ArgumentFault

/-- A field of the arguments of type `σ`: its name, and how a value sets it. -/
structure Argument (σ : Type) where
  name : String
  set : Json → σ → Except ArgumentFault σ

namespace Argument

variable {σ α : Type}

/-- A field that is read by `read` and stored by `store`. -/
def of (name : String) (read : Json → Except ArgumentFault α) (store : α → σ → σ) : Argument σ :=
  ⟨name, fun j s => (read j).map fun a => store a s⟩

/-! ## Reading values -/

/-- A natural number below a bound. -/
def natural (bound : Nat) (expected : String) (j : Json) : Except ArgumentFault Nat :=
  match j with
  | .int i => if 0 ≤ i && i < bound then .ok i.toNat else .error (.wrongValue i expected)
  | _ => .error (.wrongType j expected)

/-- A natural number of 32 bits. -/
def natural32 : Json → Except ArgumentFault Nat := natural (Nat.pow 2 32) "u32"

/-- A natural number of 64 bits. -/
def natural64 : Json → Except ArgumentFault Nat := natural (Nat.pow 2 64) "u64"

/-- A number as a double. -/
def number (j : Json) : Except ArgumentFault Float :=
  match j.number? with
  | some x => .ok x
  | none => .error (.wrongType j "f64")

/-- A text. -/
def text (j : Json) : Except ArgumentFault String :=
  match j with
  | .str s => .ok s
  | _ => .error (.wrongType j "a string")

/-- A truth value. -/
def truth (j : Json) : Except ArgumentFault Bool :=
  match j with
  | .bool b => .ok b
  | _ => .error (.wrongType j "a boolean")

/-- A list of numbers. -/
def numbers (j : Json) : Except ArgumentFault (List Float) :=
  match j with
  | .arr xs => xs.mapM number
  | _ => .error (.wrongType j "a sequence")

/-! ## Reading structures -/

/-- One member. -/
def readMember (fields : List (Argument σ)) (s : σ) (m : String × Json) :
    Except ArgumentFault σ :=
  match fields.find? fun f => f.name == m.1 with
  | some f => f.set m.2 s
  | none => .error (.unknownField m.1 (fields.map Argument.name))

/-- Arguments from their defaults and a value; `type` names the structure in messages. -/
def readAll (type : String) (fields : List (Argument σ)) (default : σ) (j : Json) :
    Except ArgumentFault σ :=
  match j with
  | .obj ms => ms.foldlM (readMember fields) default
  | .arr xs => do
    let s ← (fields.zip xs).foldlM (fun s (f, x) => f.set x s) default
    if fields.length < xs.length then throw (.tooMany xs.length) else return s
  | _ => .error (.wrongType j type)

end Argument

end HeuristicEvolution
