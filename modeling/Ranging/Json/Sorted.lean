import Ranging.Json.Value

/-!
# Members in the order of their names
-/

namespace Ranging.Json

mutual

/-- The same value with the members of every object sorted by name. -/
def sorted : Json → Json
  | .array items => .array (sortedItems items)
  | .object members => .object ((sortedMembers members).mergeSort fun a b => a.1 ≤ b.1)
  | .null => .null
  | .bool b => .bool b
  | .number text => .number text
  | .string s => .string s

/-- The same values with all members sorted. -/
def sortedItems : List Json → List Json
  | [] => []
  | v :: rest => v.sorted :: sortedItems rest

/-- The same members, in the same order, with the members inside of them sorted. -/
def sortedMembers : List (String × Json) → List (String × Json)
  | [] => []
  | (k, v) :: rest => (k, v.sorted) :: sortedMembers rest

end

end Ranging.Json
