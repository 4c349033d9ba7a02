/-!
# Catmull-Rom splines

A cubic through four equally spaced samples, read between the middle two; in two dimensions the
tensor product of two of them.
-/

namespace Terrain.Line

/-- The spline between `p1` and `p2`, at `t` in `[0, 1]`. -/
def catmullRom (p0 p1 p2 p3 t : Float) : Float :=
  let a1 := -0.5 * p0 + 0.5 * p2
  let a2 := p0 - 2.5 * p1 + 2.0 * p2 - 0.5 * p3
  let a3 := -0.5 * p0 + 1.5 * p1 - 1.5 * p2 + 0.5 * p3
  p1 + t * (a1 + t * (a2 + t * a3))

/-- Tensor product over a four by four neighbourhood, given by column and row number. -/
def bicubic (sample : Nat → Nat → Float) (tx ty : Float) : Float :=
  let column (i : Nat) := catmullRom (sample i 0) (sample i 1) (sample i 2) (sample i 3) ty
  catmullRom (column 0) (column 1) (column 2) (column 3) tx

end Terrain.Line
