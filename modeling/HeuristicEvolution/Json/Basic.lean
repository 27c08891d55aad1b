import HeuristicEvolution.Decimal.Binary

/-!
# JSON values

The values that are stored with a candidate and passed as task arguments. Integers and doubles
are different kinds and stay what they are: `1` and `1.0` are two values. An object is a list of
members with distinct names; objects made here by `ofMembers` have them in ascending order.

## Main definitions

* `Json`: values.
* `Json.insert`, `Json.ofMembers`: objects with ordered members, of equal names the last counting.
* `Json.get?`: reading into a value.
* `Json.depth`: how deep a value nests.
-/

namespace HeuristicEvolution

/-- A JSON value. -/
inductive Json where
  | null
  | bool (b : Bool)
  | int (i : Int)
  | float (x : Float)
  | str (s : String)
  | arr (elems : List Json)
  | obj (members : List (String × Json))
  deriving Inhabited

namespace Json

/-- The member of a name. -/
def lookup (name : String) : List (String × Json) → Option Json
  | [] => none
  | (k, v) :: rest => if k = name then some v else lookup name rest

/-- Puts a member into an ordered list, in place of one of the same name. -/
def insertMember (name : String) (value : Json) : List (String × Json) → List (String × Json)
  | [] => [(name, value)]
  | (k, v) :: rest =>
    if name < k then (name, value) :: (k, v) :: rest
    else if k = name then (name, value) :: rest
    else (k, v) :: insertMember name value rest

/-- The object with the given members; of equal names the last one counts. -/
def ofMembers (members : List (String × Json)) : Json :=
  .obj (members.foldl (fun ms (k, v) => insertMember k v ms) [])

/-- An object without members. -/
def empty : Json := .obj []

/-- The member of an object; anything else has none. -/
def get? (j : Json) (name : String) : Option Json :=
  match j with
  | .obj ms => lookup name ms
  | _ => none

/-- Sets a member of an object; other values stay as they are. -/
def insert (j : Json) (name : String) (value : Json) : Json :=
  match j with
  | .obj ms => .obj (insertMember name value ms)
  | _ => j

/-- A text. -/
def str? : Json → Option String
  | .str s => some s
  | _ => none

/-- A truth value. -/
def bool? : Json → Option Bool
  | .bool b => some b
  | _ => none

/-- The elements of an array. -/
def arr? : Json → Option (List Json)
  | .arr xs => some xs
  | _ => none

/-- The members of an object. -/
def obj? : Json → Option (List (String × Json))
  | .obj ms => some ms
  | _ => none

/-- A natural number below `bound` of the kind of integers. -/
def nat? (bound : Nat) : Json → Option Nat
  | .int i => if 0 ≤ i && i < bound then some i.toNat else none
  | _ => none

/-- A number as a double; integers are rounded to the nearest one. -/
def number? : Json → Option Float
  | .int i => some (Binary.ofInt i)
  | .float x => some x
  | _ => none

/-- A double as a value. There is no value for NaN and the infinities, `null` stands for them. -/
def ofFloat (x : Float) : Json := if x.isFinite then .float x else .null

/-- A text or `null`. -/
def ofText? : Option String → Json
  | some s => .str s
  | none => .null

/-- A natural number. -/
def ofNat (n : Nat) : Json := .int (Int.ofNat n)

/-- A list of texts. -/
def ofTexts (xs : List String) : Json := .arr (xs.map .str)

/-! ### Depth -/

mutual

/-- How many arrays and objects lie within each other at most, the value itself included. -/
def depth : Json → Nat
  | .arr xs => depthElems xs + 1
  | .obj ms => depthMembers ms + 1
  | _ => 0

/-- The depth of the deepest element. -/
def depthElems : List Json → Nat
  | [] => 0
  | x :: rest => max (depth x) (depthElems rest)

/-- The depth of the deepest member. -/
def depthMembers : List (String × Json) → Nat
  | [] => 0
  | (_, v) :: rest => max (depth v) (depthMembers rest)

end

/-- How deep a value may nest that is read from a text. -/
def depthLimit : Nat := 127

/-! ### Order of members -/

mutual

/-- The value with the members of each object in ascending order, of equal names the last one. -/
def sorted : Json → Json
  | .arr xs => .arr (sortedElems xs)
  | .obj ms => ofMembers (sortedMembers ms)
  | v => v

/-- Each element with ordered members. -/
def sortedElems : List Json → List Json
  | [] => []
  | x :: rest => sorted x :: sortedElems rest

/-- Each member's value with ordered members. -/
def sortedMembers : List (String × Json) → List (String × Json)
  | [] => []
  | (k, v) :: rest => (k, sorted v) :: sortedMembers rest

end

theorem lookup_insertMember_self (name : String) (value : Json) (ms : List (String × Json)) :
    lookup name (insertMember name value ms) = some value := by
  induction ms with
  | nil => simp [insertMember, lookup]
  | cons m ms ih =>
    obtain ⟨k, v⟩ := m
    rw [insertMember]
    split
    · simp [lookup]
    · split
      · simp [lookup]
      · next h => simp [lookup, h, ih]

theorem lookup_insertMember_of_ne {name other : String} (h : other ≠ name) (value : Json)
    (ms : List (String × Json)) :
    lookup other (insertMember name value ms) = lookup other ms := by
  induction ms with
  | nil => simp [insertMember, lookup, Ne.symm h]
  | cons m ms ih =>
    obtain ⟨k, v⟩ := m
    rw [insertMember]
    split
    · simp [lookup, Ne.symm h]
    · split
      · next hk => subst hk; simp [lookup, Ne.symm h]
      · simp [lookup, ih]

end Json

end HeuristicEvolution
