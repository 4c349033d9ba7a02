import Terrain.Raster.Map

/-!
# Drawing lines

A segment is first clipped to the map and then walked in unit steps along its longer axis, setting
one sample per step.

* `Segment.clip?` — the part of a segment inside a rectangle at the origin.
* `HeightMap.drawLine` — draws between two logical points.
-/

namespace Terrain

/-- A segment with fractional ends. -/
structure Segment where
  startX : Float
  startY : Float
  endX : Float
  endY : Float

/-- On which sides of a rectangle a position lies. -/
structure Outcode where
  left : Bool
  right : Bool
  top : Bool
  bottom : Bool

namespace Outcode

def of (bounds : Rectangle) (x y : Float) : Outcode :=
  let stop := bounds.endingPoint
  let left := x < Float.ofInt bounds.position.x
  let top := y < Float.ofInt bounds.position.y
  { left := left
    right := !left && x ≥ Float.ofInt stop.x
    top := top
    bottom := !top && y ≥ Float.ofInt stop.y }

def isInside (code : Outcode) : Bool := !(code.left || code.right || code.top || code.bottom)

/-- Whether two positions lie on one side together. -/
def shares (a b : Outcode) : Bool :=
  (a.left && b.left) || (a.right && b.right) || (a.top && b.top) || (a.bottom && b.bottom)

end Outcode

namespace Segment

/-- Where a segment meets the border named by an outcode; `lastX` and `lastY` are the last inner
coordinates. -/
def meet (segment : Segment) (code : Outcode) (lastX lastY : Float) : Float × Float :=
  let dx := segment.endX - segment.startX
  let dy := segment.endY - segment.startY
  if code.bottom then (segment.startX + dx * (lastY - segment.startY) / dy, lastY)
  else if code.top then (segment.startX + dx * (0.0 - segment.startY) / dy, 0.0)
  else if code.right then (lastX, segment.startY + dy * (lastX - segment.startX) / dx)
  else (0.0, segment.startY + dy * (0.0 - segment.startX) / dx)

/-- Moves outside ends to the border until both are inside or the segment misses the rectangle. An
end moves at most twice, plus repairs of rounding, so the fuel is never used up. -/
def clipLoop (fuel : Nat) (bounds : Rectangle) (lastX lastY : Float) (segment : Segment) :
    Option Segment :=
  match fuel with
  | 0 => none
  | fuel + 1 =>
    let startCode := Outcode.of bounds segment.startX segment.startY
    let endCode := Outcode.of bounds segment.endX segment.endY
    if startCode.isInside && endCode.isInside then some segment
    else if startCode.shares endCode then none
    else if !startCode.isInside then
      let (x, y) := segment.meet startCode lastX lastY
      clipLoop fuel bounds lastX lastY { segment with startX := x, startY := y }
    else
      let (x, y) := segment.meet endCode lastX lastY
      clipLoop fuel bounds lastX lastY { segment with endX := x, endY := y }

/-- The part of a segment inside a rectangle at the origin. -/
def clip? (segment : Segment) (bounds : Rectangle) : Option Segment :=
  if bounds.isEmpty then none
  else
    clipLoop 1000 bounds (Float.ofNat (bounds.size.width - 1)) (Float.ofNat (bounds.size.height - 1))
      segment

end Segment

namespace HeightMap

/-- Sets the sample a fractional position lies in, if there is one. -/
def plot (map : HeightMap) (value : Height) (x y : Float) : HeightMap :=
  map.setIfInside (Number.truncateTo coordinateMin coordinateMax x)
    (Number.truncateTo coordinateMin coordinateMax y) value

/-- Steps by `(dx, dy)` while `running` holds, plotting every position reached. -/
def walk (fuel : Nat) (value : Height) (dx dy : Float) (running : Float → Float → Bool)
    (map : HeightMap) (x y : Float) : HeightMap :=
  match fuel with
  | 0 => map
  | fuel + 1 =>
    if running x y then
      walk fuel value dx dy running (map.plot value (x + dx) (y + dy)) (x + dx) (y + dy)
    else map

/-- Draws a line one sample wide between two logical points, from left to right. A clipped segment
is no longer than the map, which bounds the number of steps. -/
def drawLine (map : HeightMap) (start stop : Point) (value : Height) : HeightMap :=
  let (a, b) := if start.x ≤ stop.x then (start, stop) else (stop, start)
  let first := map.localPoint a
  let last := map.localPoint b
  let segment : Segment :=
    ⟨Float.ofInt first.x, Float.ofInt first.y, Float.ofInt last.x, Float.ofInt last.y⟩
  match segment.clip? map.bounds with
  | none => map
  | some ⟨x, y, endX, endY⟩ =>
    let fullX := segment.endX - segment.startX
    let fullY := segment.endY - segment.startY
    let steps := max map.width map.height + 1
    let map := map.plot value x y
    if Number.magnitude (endX - x) ≥ Number.magnitude (endY - y) then
      let slope := if fullX == 0.0 then 0.0 else fullY / fullX
      map.walk steps value 1.0 slope (fun x _ => x < endX) x y
    else
      let slope := fullX / fullY
      if y < endY then map.walk steps value slope 1.0 (fun _ y => y < endY) x y
      else map.walk steps value (-slope) (-1.0) (fun _ y => y > endY) x y

end HeightMap

end Terrain
