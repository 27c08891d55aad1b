import HeuristicEvolution.Json.Parser
import HeuristicEvolution.Json.Printer

/-!
# Values that are kept as text

A value that is stored is written as compact text and read again when it is asked for. What comes
back has its members in ascending order, and each double is the one that the reader makes of the
written digits. For doubles that were read from up to fifteen digits that is the double itself.

## Main definitions

* `Json.asStored`: what comes back of a value.
-/

namespace HeuristicEvolution.Json

/-- What comes back of a value without parts. -/
def atomAsStored : Json → Json
  | .float x => if x.isFinite then (parseRaw? (atom (.float x))).getD (.float x) else .null
  | v => v

mutual

/-- What comes back of a value that was written and read. -/
def asStored : Json → Json
  | .arr xs => .arr (elemsAsStored xs)
  | .obj ms => ofMembers (membersAsStored ms)
  | v => atomAsStored v

/-- What comes back of the elements of an array. -/
def elemsAsStored : List Json → List Json
  | [] => []
  | x :: rest => asStored x :: elemsAsStored rest

/-- What comes back of the members of an object. -/
def membersAsStored : List (String × Json) → List (String × Json)
  | [] => []
  | (k, v) :: rest => (k, asStored v) :: membersAsStored rest

end

end HeuristicEvolution.Json
