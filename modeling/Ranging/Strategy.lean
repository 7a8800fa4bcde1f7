/-!
# Strategies for choosing a partner

A packet of one anchor can often be paired with several others. The strategy is chosen when a
receiver is built, and documents and the command line know it by its name.
-/

namespace Ranging

/-- How a partner is chosen among the eligible neighbours. -/
inductive Strategy where
  /-- Packets are never paired, and only feed the clock filter. -/
  | never
  /-- The first one, from a starting point that moves on with every call. -/
  | random
  /-- The one heard most recently by the tag, the first of equally recent ones. -/
  | youngest
deriving DecidableEq

namespace Strategy

/-- The lower-case name, as it is written in documents and on the command line. -/
def name : Strategy → String
  | .never => "none"
  | .random => "random"
  | .youngest => "youngest"

/-- All strategies, in the order of their declaration. -/
def all : List Strategy := [.never, .random, .youngest]

/-- The strategy with this exact name. -/
def ofName? (name : String) : Option Strategy :=
  all.find? (·.name = name)

end Strategy

end Ranging
