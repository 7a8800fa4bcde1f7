/-!
# Anchor identifiers

An anchor carries a one-byte identifier in its broadcasts. Identifiers are reused across a large
installation, as long as two anchors with the same one are never in range of the same place.
-/

namespace Ranging

/-- Identifier of an anchor as carried in its broadcasts. -/
structure AnchorId where
  val : UInt8
deriving DecidableEq

namespace AnchorId

/-- The name of an anchor in messages: the letter A and the number. -/
def label (id : AnchorId) : String :=
  s!"A{id.val}"

/-- The identifier `n` places further on, starting over after 255. -/
def advance (id : AnchorId) (n : Nat) : AnchorId :=
  ⟨id.val + n.toUInt8⟩

end AnchorId

end Ranging
