import Terrain.Number.Order
import Terrain.Plane.Point

/-!
# Heights

A height is a whole number in `[-32767, 32767]`; scripts see it as a number in `[-1, 1]`. Sums
saturate, and every result of float arithmetic is clamped before it is truncated.

* `addHeights` — saturating sum.
* `clampHeight`, `clampHeightFloat` — wide and float intermediates back into the range.
* `lerp` — a height on the line between two anchors.
* `maskFactor` — the weight in `[0, 1]` a mask sample stands for.
-/

namespace Terrain

/-- A terrain sample. -/
abbrev Height := Int

def heightMin : Height := -32767
def heightMax : Height := 32767

/-- Within the height range. -/
def IsHeight (value : Int) : Prop := heightMin ≤ value ∧ value ≤ heightMax

instance (value : Int) : Decidable (IsHeight value) :=
  inferInstanceAs (Decidable (_ ∧ _))

/-- Truncates a float into the sixteen signed bits a stored sample has. -/
def truncateHeight (x : Float) : Height := Number.truncateTo (-32768) 32767 x

/-- Saturating sum. Only the bound on the side of the sign of `x` can be crossed. -/
def addHeights (x y : Height) : Height :=
  if x < 0 then max (x + y) heightMin else min (x + y) heightMax

/-- A wide intermediate, saturated. -/
def clampHeight (value : Int) : Height := Number.clampInt heightMin heightMax value

/-- A float intermediate, saturated and then truncated. -/
def clampHeightFloat (value : Float) : Height :=
  truncateHeight (Number.clamp (-32767.0) 32767.0 value)

/-- Height at `point` on the line through two anchors. -/
def lerp (fromAt toAt : Float) (fromHeight toHeight : Height) (point : Float) : Height :=
  let start := Float.ofInt fromHeight
  let stop := Float.ofInt toHeight
  clampHeightFloat (start + (stop - start) * (point - fromAt) / (toAt - fromAt))

/-- Weight of a mask sample; negative samples weigh nothing. -/
def maskFactor (mask : Height) : Float := Float.ofInt (max mask 0) / 32767.0

/-- A height weighted by a float in `[0, 1]`, truncated. -/
def weighted (height : Height) (factor : Float) : Height :=
  truncateHeight (Float.ofInt height * factor)

/-- Magnitude of a stored sample; the lowest of the sixteen bits saturates. -/
def absHeight (height : Height) : Height := min height.natAbs 32767

/-- Opposite of a stored sample; the lowest of the sixteen bits saturates. -/
def negHeight (height : Height) : Height := min (-height) 32767

/-! ## Script numbers -/

/-- A number in `[-1, 1]` as a height. -/
def numberToHeight? (n : Float) : Option Height :=
  if -1.0 ≤ n && n ≤ 1.0 then some (truncateHeight (n * 32767.0)) else none

/-- A height as a number in `[-1, 1]`. -/
def heightToNumber (height : Height) : Float := Float.ofInt height / 32767.0

/-- Truncates toward zero; only finite numbers within the coordinate range. -/
def numberToCoordinate? (n : Float) : Option Coordinate :=
  if !Number.isFinite n || n < -2147483648.0 || n > 2147483647.0 then none
  else some (Number.truncateTo coordinateMin coordinateMax n)

/-- Truncates toward zero; only finite numbers within the extent range. -/
def numberToExtent? (n : Float) : Option Extent :=
  if !Number.isFinite n || n < 0.0 || n > 4294967295.0 then none
  else some (Number.truncateTo 0 extentMax n).toNat

def scaleMin : Scale := 0.1
def scaleMax : Scale := 10.0

/-- A number in `[0.1, 10]` as a scale. -/
def numberToScale? (n : Float) : Option Scale :=
  if scaleMin ≤ n && n ≤ scaleMax then some n else none

/-! ## Multiples -/

/-- Largest multiple of `m` that is at most `x`. -/
def multipleAtMost (x : Int) (m : Extent) : Int := x / m * m

/-- Largest multiple of `m` below `x`. -/
def multipleBelow (x : Int) (m : Extent) : Int := multipleAtMost (x - 1) m

/-- Smallest multiple of `m` above `x`. -/
def multipleAbove (x : Int) (m : Extent) : Int := multipleAtMost x m + m

/-- Smallest multiple of `m` that is at least `x`. -/
def multipleAtLeast (x : Int) (m : Extent) : Int := multipleAbove (x - 1) m

end Terrain
