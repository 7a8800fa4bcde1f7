import Ranging.Strategy
import Ranging.Text.Lowercase

/-!
# Strategies named by a user

A user may write the name of a strategy in capitals; a document may not.
-/

namespace Ranging.Strategy

/-- No strategy has this name, which is given in lower case. -/
structure UnknownName where
  name : String
deriving DecidableEq

/-- The message for a name that no strategy has. -/
def UnknownName.message (e : UnknownName) : String :=
  s!"unknown matching algorithm: {e.name}"

/-- The strategy with a name, in small or capital letters. -/
def parse (text : String) : Except UnknownName Strategy :=
  let name := Text.lowercase text
  match ofName? name with
  | some s => .ok s
  | none => .error ⟨name⟩

end Ranging.Strategy
