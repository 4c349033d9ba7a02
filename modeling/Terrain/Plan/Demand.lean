import Terrain.Plan.Bounds
import Terrain.Plan.Step

/-!
# What a step needs

From the bounds a step has to produce follow the bounds it reads: of the earlier content of its
target and of its arguments. From the footprint of its target before the step follow the footprint
afterwards and the memory the step takes while it runs.

* `Step.priorBounds` — how much of the target's earlier content is needed.
* `Step.argumentBounds` — how much of each argument is needed.
* `Step.footprintAfter`, `Step.extraMemory` — what the step does to resident memory.
-/

namespace Terrain

namespace Interval

/-- Interval between two float bounds, both saturated. -/
def ofFloatBounds (start stop : Float) : Interval :=
  let start := Number.clamp (-2147483648.0) 2147483647.0 start
  let length := Number.clamp 0.0 4294967295.0 (stop - start)
  ⟨Number.truncateTo coordinateMin coordinateMax start, (Number.truncateTo 0 extentMax length).toNat⟩

/-- Smallest interval that covers this one after stretching by a factor. -/
def unstretched (interval : Interval) (factor : Scale) : Interval :=
  if interval.isEmpty then interval
  else
    ofFloatBounds (Number.floor (Float.ofInt interval.start / factor))
      (Number.ceil (Float.ofInt interval.stop / factor))

/-- Image under `x ↦ -x - 1`. -/
def reflected (interval : Interval) : Interval :=
  ofFloatBounds (-Float.ofInt interval.stop) (-Float.ofInt interval.start)

end Interval

namespace Rectangle

/-- Smallest rectangle that covers this one after stretching by two factors. -/
def unstretched (rectangle : Rectangle) (horizontal vertical : Scale) : Rectangle :=
  ofIntervals (rectangle.horizontal.unstretched horizontal)
    (rectangle.vertical.unstretched vertical)

end Rectangle

/-! ## Bounds read -/

/-- Earlier content of the target a map edit needs to produce a rectangle. -/
def MapEdit.prior (own : Rectangle) : MapEdit → Rectangle
  | blur radius | convexity radius => own.expand radius
  | distort maxDistance => own.expand maxDistance
  | shift maxDistance direction => own.expandIn maxDistance direction
  | transform matrix => (matrix.inverse.image own).expand 1
  | rescale horizontal vertical => own.unstretched horizontal vertical
  | move offset => own.translated (-offset)
  | resize rectangle _ => .intersect own rectangle
  | _ => own

/-- Earlier content of the target a profile edit needs to produce an interval. -/
def ProfileEdit.prior (own : Interval) : ProfileEdit → Interval
  | blur radius => own.expand radius
  | flip => own.reflected
  | rescale factor => own.unstretched factor
  | move offset => own.translated (narrowCoordinate (-offset))
  | resize interval _ => .intersect own interval
  | _ => own

namespace Step

/-- Earlier content of the target the step needs to produce bounds. Empty bounds need nothing, except
that a yield always needs its rectangle. -/
def priorBounds (step : Step) (own : Bounds) : Except Breach Bounds :=
  match step.action with
  | .yield _ rectangle => own.combine (.rectangle rectangle)
  | .editMap edit => do
    if own.isEmpty then return own
    return .rectangle (edit.prior (← own.asRectangle))
  | .editProfile edit => do
    if own.isEmpty then return own
    return .interval (edit.prior (← own.asInterval))
  | .makeMap _ | .makeProfile _ => .ok own

/-- Content of each argument the step reads to produce bounds. -/
def argumentBounds (step : Step) (own : Bounds) : Except Breach Bounds :=
  match step.action with
  | .makeMap (.projection direction) | .editMap (.shift _ direction) => do
    return .interval ((← own.asRectangle).across direction)
  | .makeProfile (.slice direction coordinate) => do
    let side ← own.asInterval
    if side.isEmpty then return .empty .map
    return .rectangle <| match direction with
      | .horizontal => .ofIntervals side ⟨coordinate, 1⟩
      | .vertical => .ofIntervals ⟨coordinate, 1⟩ side
  | .editMap (.pattern repeated) => .ok (.rectangle repeated)
  | .editProfile (.pattern repeated) => .ok (.interval repeated)
  | .editMap (.transformHeights interval _ _) => .ok (.interval interval)
  | _ => .ok own

/-! ## Memory -/

/-- Footprint of the target after an edit, from the one before. -/
def footprintAfter (step : Step) (own footprint : Bounds) : Except Breach Bounds :=
  match step.action with
  | .editMap (.rescale horizontal vertical) => do
    return .rectangle ((← footprint.asRectangle).stretched horizontal vertical)
  | .editMap (.move offset) => do return .rectangle ((← footprint.asRectangle).translated offset)
  | .editMap (.resize rectangle _) => .ok (.rectangle rectangle)
  | .editMap (.transform _) => .ok own
  | .editProfile (.rescale factor) => do
    return .interval ((← footprint.asInterval).stretched factor)
  | .editProfile (.move offset) => do return .interval ((← footprint.asInterval).translated offset)
  | .editProfile (.resize interval _) => .ok (.interval interval)
  | .editProfile .flip => do return .interval (← footprint.asInterval).reflected
  | _ => .ok footprint

end Step

/-- A memory figure, which must fit 64 bits. -/
def checkFigure (figure : Nat) : Except Breach Nat :=
  if figure ≤ memoryMax then .ok figure else .error .overflow

/-- Copies of the target's footprint an edit works on beside the target. -/
inductive Workspace where
  | copies (count : Nat)
  /-- The new raster is built beside the old one. -/
  | replacement

def MapEdit.workspace : MapEdit → Workspace
  | blur .. | distort .. | shift .. => .copies 1
  | convexity .. => .copies 2
  | distanceMap .. => .copies 4
  | rescale .. | resize .. | transform .. => .replacement
  | _ => .copies 0

def ProfileEdit.workspace : ProfileEdit → Workspace
  | blur .. => .copies 1
  | rescale .. | resize .. => .replacement
  | _ => .copies 0

namespace Step

/-- Bytes taken while the step runs, beside all that is resident. The footprint is that of the target
before the step. -/
def extraMemory (step : Step) (own footprint : Bounds) (scale : Scale) : Except Breach Nat :=
  match step.action with
  | .makeMap _ | .makeProfile _ => own.memorySize scale
  | .yield _ rectangle => do
    discard <| footprint.memorySize scale
    Bounds.memorySize (.rectangle rectangle) scale
  | .editMap edit => ofWorkspace edit.workspace
  | .editProfile edit => ofWorkspace edit.workspace
where
  ofWorkspace (workspace : Workspace) : Except Breach Nat := do
    let current ← footprint.memorySize scale
    match workspace with
    | .copies count => checkFigure (count * current)
    | .replacement => (← step.footprintAfter own footprint).memorySize scale

end Step

end Terrain
