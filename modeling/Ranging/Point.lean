import Ranging.Scalar

/-!
# Points and displacements

Positions in the local frame of the installation, in metres. Sums of squares run over the axes
from left to right, which fixes the rounding of a distance.
-/

namespace Ranging

/-- A position, or a displacement, in metres along three axes. -/
structure Point (K : Type) where
  x : K
  y : K
  z : K
deriving BEq

namespace Point

variable {K : Type}

/-- Apply a function to every coordinate. -/
def map (f : K → K) (p : Point K) : Point K :=
  ⟨f p.x, f p.y, f p.z⟩

/-- Combine two points axis by axis. -/
def zipWith (f : K → K → K) (p q : Point K) : Point K :=
  ⟨f p.x q.x, f p.y q.y, f p.z q.z⟩

/-- The point whose coordinates all equal `a`. -/
def diagonal (a : K) : Point K :=
  ⟨a, a, a⟩

section Linear

variable [Scalar K]

def add (p q : Point K) : Point K := zipWith (· + ·) p q

def sub (p q : Point K) : Point K := zipWith (· - ·) p q

/-- Scale a displacement. -/
def scale (p : Point K) (a : K) : Point K := p.map (· * a)

/-- The point half-way between two points. -/
def midpoint (p q : Point K) : Point K := (p.add q).scale 0.5

/-- The sum of the squares of the coordinates. -/
def normSq (p : Point K) : K := p.x * p.x + p.y * p.y + p.z * p.z

end Linear

section Metric

variable [Analytic K]

/-- The length of a displacement. -/
def norm (p : Point K) : K := Analytic.sqrt p.normSq

/-- The displacement of length one in the same direction. -/
def normalize (p : Point K) : Point K :=
  let length := p.norm
  p.map (· / length)

/-- The distance from `p` to `q`. -/
def distance (p q : Point K) : K := (q.sub p).norm

end Metric

end Point

/-- The speed of light in vacuum, in metres per second. -/
def speedOfLight {K : Type} [Scalar K] : K := 299792458.0

end Ranging
