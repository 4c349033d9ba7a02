import Terrain.Plan.Sequence
import Terrain.Proofs.Line.Blur
import Terrain.Proofs.Plane.Regions

/-!
# Steps on the whole plane

What steps mean when a map has no end: every slot holds a height at each point of the plane, and a
yield shows a rectangle of it. Nothing is planned and nothing is cut off.

* `Relief`, `Scene` — heights everywhere; the content of all slots and what has been yielded.
* `MapMaker.relief`, `MapEdit.relief`, `Step.play` — what actions mean.
* `Action.isPlanar` — the actions that have a meaning here.
* `Action.Figures` — the figures of an action are below a limit.
-/

namespace Terrain

abbrev Relief := Int → Int → Height

/-- Mean over the neighbourhood of each point, along rows and then along columns. -/
def Relief.blur (radius : Nat) (relief : Relief) : Relief := fun x y =>
  Line.windowMean radius
    (fun row => Line.windowMean radius (fun column => relief column row) x) y

structure View where
  rectangle : Rectangle
  relief : Relief

structure Scene where
  reliefs : Slot → Relief
  views : String → Option View

namespace Scene

def blank : Scene := ⟨fun _ _ _ => 0, fun _ => none⟩

def put (scene : Scene) (slot : Slot) (relief : Relief) : Scene :=
  { scene with reliefs := fun other => if other = slot then relief else scene.reliefs other }

def hang (scene : Scene) (name : String) (view : View) : Scene :=
  { scene with views := fun other => if other = name then some view else scene.views other }

end Scene

/-! ## Meanings -/

/-- The relief that an argument names, by its place; a plain at height zero if there is no such
argument. -/
def given (reliefs : Slot → Relief) (arguments : List Slot) (index : Nat) : Relief :=
  (arguments[index]?.map reliefs).getD fun _ _ => 0

/-- The relief a maker makes. Makers that are not planar have none; they count as flat. -/
def MapMaker.relief (given : Nat → Relief) : MapMaker → Relief
  | flat height => fun _ _ => height
  | clone => given 0
  | _ => fun _ _ => 0

/-- The relief after an edit. Edits that are not planar have none; they count as idle. -/
def MapEdit.relief (given : Nat → Relief) (own : Relief) : MapEdit → Relief
  | abs => fun x y => absHeight (own x y)
  | add height => fun x y => addHeights (own x y) height
  | addMap => fun x y => addHeights (own x y) (given 0 x y)
  | addMasked height => fun x y =>
    addHeights (own x y) (weighted height (maskFactor (given 0 x y)))
  | addMapMasked => fun x y =>
    addHeights (own x y) (weighted (given 0 x y) (maskFactor (given 1 x y)))
  | blur radius => own.blur radius
  | clampHeights low high => fun x y => Number.clampInt low high (own x y)
  | combine => fun x y =>
    addHeights (weighted (own x y) (maskFactor (given 1 x y)))
      (weighted (given 0 x y) (1.0 - maskFactor (given 1 x y)))
  | convexity radius => fun x y => addHeights (negHeight (own.blur radius x y)) (own x y)
  | crop rectangle height => fun x y => if rectangle.Covers x y then own x y else height
  | cropHeights low high replacement => fun x y =>
    if own x y < low ∨ high < own x y then replacement else own x y
  | fillRectangle rectangle height => fun x y => if rectangle.Covers x y then height else own x y
  | intersect => fun x y => min (own x y) (given 0 x y)
  | invert => fun x y => negHeight (own x y)
  | move offset => fun x y => own (x - offset.x) (y - offset.y)
  | multiply factor => fun x y => clampHeightFloat (Float.ofInt (own x y) * factor)
  | multiplyMap => fun x y => weighted (own x y) (maskFactor (given 0 x y))
  | pattern repeated => fun x y =>
    given 0 (x % repeated.size.width + repeated.position.x)
      (y % repeated.size.height + repeated.position.y)
  | unify => fun x y => max (own x y) (given 0 x y)
  | _ => own

def Step.play (scene : Scene) (step : Step) : Scene :=
  let given := given scene.reliefs step.arguments
  match step.action with
  | .makeMap maker => scene.put step.target (maker.relief given)
  | .editMap edit => scene.put step.target (edit.relief given (scene.reliefs step.target))
  | .yield name rectangle => scene.hang name ⟨rectangle, scene.reliefs step.target⟩
  | .makeProfile _ | .editProfile _ => scene

def Scene.ofSteps (steps : List Step) : Scene := steps.foldl Step.play .blank

/-! ## Planar actions -/

def MapMaker.isPlanar : MapMaker → Bool
  | flat _ | clone => true
  | _ => false

def MapEdit.isPlanar : MapEdit → Bool
  | abs | add _ | addMap | addMasked _ | addMapMasked | blur _ | clampHeights .. | combine
  | convexity _ | crop .. | cropHeights .. | fillRectangle .. | intersect | invert | move _
  | multiply _ | multiplyMap | unify => true
  | pattern repeated => !repeated.isEmpty
  | _ => false

/-- Whether an action has a meaning on the whole plane. A pattern needs something to repeat. -/
def Action.isPlanar : Action → Bool
  | makeMap maker => maker.isPlanar
  | editMap edit => edit.isPlanar
  | yield .. => true
  | makeProfile _ | editProfile _ => false

def MapEdit.Figures (limit : Nat) : MapEdit → Prop
  | blur radius | convexity radius => Below radius limit
  | crop rectangle _ | fillRectangle rectangle _ | pattern rectangle => rectangle.Within limit
  | move offset => Below offset.x limit ∧ Below offset.y limit
  | _ => True

def Action.Figures (limit : Nat) : Action → Prop
  | editMap edit => edit.Figures limit
  | yield _ rectangle => rectangle.Within limit
  | _ => True

end Terrain
