import Terrain.Proofs.Plane.Hulls
import Terrain.Proofs.Render.Slots

/-!
# Logical and physical rectangles

A map is laid out over the samples that its logical rectangle touches at its scale. Operations on heights
leave both rectangles alone, and those that lay a map out anew derive one from the other. A move and a
stretch change each rectangle on its own instead, and each rounds for itself: after two moves by half a
sample the logical rectangle has come one sample further and the samples have not moved at all.

* `HeightMap.IsAligned` — the raster is the logical rectangle, scaled.
* `HeightMap.Operation` — the operations on a map, with `runAll` for a sequence of them.
* `HeightMap.Operation.settles` — whether alignment is certain after an operation.
* `HeightMap.runAll_placement` — scale and number of samples after any sequence of operations, and when
  the raster is aligned.
-/

namespace Terrain

namespace HeightMap

variable {map after : HeightMap} {scale : Scale} {settled : Bool}

/-- The raster is the logical rectangle, scaled. -/
def IsAligned (map : HeightMap) : Prop := map.raster = map.logical.scaled map.scale

theorem isAligned_create (logical : Rectangle) (height : Height) (scale : Scale) :
    (create logical height scale).IsAligned := rfl

theorem SameShape.isAligned (same : map.SameShape after) (aligned : map.IsAligned) :
    after.IsAligned := by
  unfold IsAligned
  rw [same.raster, same.logical, same.scale]
  exact aligned

theorem sameShape_blurIn (radius : Extent) (direction : Direction) :
    map.SameShape (map.blurIn radius direction) := by
  cases direction with
  | horizontal => exact ⟨rfl, rfl, rfl, fun full => Grid.size_mapRows (Line.size_blurLine _) full⟩
  | vertical => exact ⟨rfl, rfl, rfl, fun _ => Grid.size_mapColumns⟩

theorem sameShape_setIfInside (x y : Int) (value : Height) :
    map.SameShape (map.setIfInside x y value) := by
  unfold setIfInside
  split
  · exact sameShape_withSamples Array.size_modify
  · exact .refl map

/-! ## Operations -/

/-- An operation on a map: an edit with the rasters that it reads and the rectangle that it has to fill, or
an operation that no edit stands for. -/
inductive Operation where
  | edit (change : MapEdit) (arguments : ArgumentReader) (own : Rectangle)
  | blurIn (radius : Extent) (direction : Direction)
  | gradient (source destination : Point) (low high : Height)
  | noise (layers : NoiseLayers) (seed : Nat)
  | noiseLayer (waveLength : Extent) (amplitude : Height) (seed step : Nat) (ridged : Bool)
  | projection (profile : HeightProfile) (direction : Direction)
  | radialGradient (center : Point) (radius : Extent) (low high : Height)
  | setSample (x y : Int) (value : Height)

namespace Operation

variable {operation : Operation}

def run (map : HeightMap) : Operation → Except Breach HeightMap
  | edit change arguments own => change.run arguments (.rectangle own) map
  | blurIn radius direction => .ok (map.blurIn radius direction)
  | gradient source destination low high => .ok (map.gradient source destination low high)
  | noise layers seed => map.noise layers seed
  | noiseLayer waveLength amplitude seed step ridged =>
    map.noiseLayer waveLength amplitude seed step ridged
  | projection profile direction => map.projection profile direction
  | radialGradient center radius low high => .ok (map.radialGradient center radius low high)
  | setSample x y value => .ok (map.setIfInside x y value)

/-- A map of the shape that an operation leaves. -/
def template (map : HeightMap) : Operation → HeightMap
  | edit change _ own => change.template (.rectangle own) map
  | _ => map

theorem sameShape_of_run (ran : operation.run map = .ok after) :
    (operation.template map).SameShape after := by
  cases operation with
  | edit change arguments own => exact (MapEdit.fits_run rfl (MapEdit.supplies_of_run ran)).ok ran
  | blurIn radius direction =>
    cases ran
    exact sameShape_blurIn _ _
  | gradient source destination low high =>
    cases ran
    exact sameShape_gradient _ _ _ _
  | noise layers seed => exact (fits_noise layers seed).ok ran
  | noiseLayer waveLength amplitude seed step ridged =>
    exact (fits_noiseLayer waveLength amplitude seed step ridged).ok ran
  | projection profile direction => exact (fits_projection direction).ok ran
  | radialGradient center radius low high =>
    cases ran
    exact sameShape_radialGradient _ _ _ _
  | setSample x y value =>
    cases ran
    exact sameShape_setIfInside _ _ _

/-- Whether the raster is known to be aligned after an operation, from whether it was before. -/
def settles (settled : Bool) : Operation → Bool
  | edit (.move _) _ _ | edit (.rescale ..) _ _ => false
  | edit (.resize ..) _ _ | edit (.transform _) _ _ => true
  | _ => settled

theorem isFull_template (full : map.IsFull) : (operation.template map).IsFull := by
  cases operation with
  | edit change arguments own =>
    cases change with
    | rescale horizontal vertical => exact isFull_filled _ _ _ _
    | resize rectangle height => exact isFull_filled _ _ _ _
    | transform matrix => exact isFull_filled _ _ _ _
    | _ => exact full
  | _ => exact full

theorem scale_template : (operation.template map).scale = map.scale := by
  cases operation with
  | edit change arguments own => exact MapEdit.template_scale
  | _ => rfl

theorem isAligned_template (aligned : settled = true → map.IsAligned)
    (settles : operation.settles settled = true) : (operation.template map).IsAligned := by
  cases operation with
  | edit change arguments own =>
    cases change with
    | move offset => cases settles
    | rescale horizontal vertical => cases settles
    | resize rectangle height => exact isAligned_create _ _ _
    | transform matrix => exact isAligned_create _ _ _
    | _ => exact aligned settles
  | _ => exact aligned settles

end Operation

/-! ## Sequences of operations -/

def runAll (map : HeightMap) (operations : List Operation) : Except Breach HeightMap :=
  operations.foldlM (fun map operation => operation.run map) map

theorem runAll_cons {operation : Operation} {operations : List Operation}
    (ran : map.runAll (operation :: operations) = .ok after) :
    ∃ middle, operation.run map = .ok middle ∧ middle.runAll operations = .ok after := by
  unfold runAll at ran
  rw [List.foldlM_cons] at ran
  exact checked_bind_eq_ok ran

/-- Where a map lies and how many samples it has. -/
structure Placed (settled : Bool) (scale : Scale) (map : HeightMap) : Prop where
  scale : map.scale = scale
  full : map.IsFull
  aligned : settled = true → map.IsAligned

theorem Placed.run {operation : Operation} (placed : Placed settled scale map)
    (ran : operation.run map = .ok after) : Placed (operation.settles settled) scale after := by
  have same := Operation.sameShape_of_run ran
  exact {
    scale := same.scale.trans (Operation.scale_template.trans placed.scale)
    full := same.full (Operation.isFull_template placed.full)
    aligned := fun settles => same.isAligned (Operation.isAligned_template placed.aligned settles) }

theorem Placed.runAll {operations : List Operation} (placed : Placed settled scale map)
    (ran : map.runAll operations = .ok after) :
    Placed (operations.foldl Operation.settles settled) scale after := by
  induction operations generalizing map settled with
  | nil =>
    cases ran
    exact placed
  | cons operation operations ih =>
    obtain ⟨middle, first, rest⟩ := runAll_cons ran
    exact ih (placed.run first) rest

/-! ## Scale one -/

def Operation.Representable : Operation → Prop
  | edit (.move offset) _ _ => IsCoordinate offset.x ∧ IsCoordinate offset.y
  | edit (.resize rectangle _) _ _ => rectangle.Representable
  | edit (.transform _) _ own => own.Representable
  | _ => True

/-- At scale one the two rectangles are the same. -/
structure IsUnscaled (map : HeightMap) : Prop where
  scale : map.scale = 1.0
  logical : map.logical.Representable
  raster : map.raster = map.logical

theorem IsUnscaled.isAligned (unscaled : map.IsUnscaled) : map.IsAligned := by
  unfold IsAligned
  rw [unscaled.scale, unscaled.logical.scaled_one, unscaled.raster]

theorem isUnscaled_create {logical : Rectangle} (inRange : logical.Representable) (height : Height) :
    (create logical height 1.0).IsUnscaled :=
  ⟨rfl, inRange, inRange.scaled_one⟩

theorem IsUnscaled.sameShape (unscaled : map.IsUnscaled) (same : map.SameShape after) :
    after.IsUnscaled where
  scale := same.scale.trans unscaled.scale
  logical := same.logical ▸ unscaled.logical
  raster := by rw [same.raster, same.logical, unscaled.raster]

theorem IsUnscaled.moveBy (unscaled : map.IsUnscaled) {offset : Point} (inX : IsCoordinate offset.x)
    (inY : IsCoordinate offset.y) : (map.moveBy offset).IsUnscaled where
  scale := unscaled.scale
  logical := unscaled.logical.translated offset
  raster := by
    -- every part of an offset is a whole number of samples
    have whole : offset.scaled map.scale = offset := by
      rw [unscaled.scale, Point.scaled, Point.scaleCoordinate_one inX, Point.scaleCoordinate_one inY]
    simp only [HeightMap.moveBy, whole, unscaled.raster]

theorem IsUnscaled.template {operation : Operation} (unscaled : map.IsUnscaled)
    (inRange : operation.Representable) : (operation.template map).IsUnscaled := by
  have scale := unscaled.scale
  cases operation with
  | edit change arguments own =>
    cases change with
    | move offset => exact unscaled.moveBy inRange.1 inRange.2
    | rescale horizontal vertical =>
      have raster := congrArg (·.stretched horizontal vertical) unscaled.raster
      exact ⟨scale, Rectangle.representable_stretched _ _ _, raster⟩
    | resize rectangle height =>
      change (create rectangle height map.scale).IsUnscaled
      exact scale ▸ isUnscaled_create inRange height
    | transform matrix =>
      change (create own 0 map.scale).IsUnscaled
      exact scale ▸ isUnscaled_create inRange 0
    | _ => exact unscaled
  | _ => exact unscaled

theorem IsUnscaled.runAll {operations : List Operation} (unscaled : map.IsUnscaled)
    (inRange : ∀ operation ∈ operations, operation.Representable)
    (ran : map.runAll operations = .ok after) : after.IsUnscaled := by
  induction operations generalizing map with
  | nil =>
    cases ran
    exact unscaled
  | cons operation operations ih =>
    rw [List.forall_mem_cons] at inRange
    obtain ⟨middle, first, rest⟩ := runAll_cons ran
    exact ih ((unscaled.template inRange.1).sameShape (Operation.sameShape_of_run first)) inRange.2 rest

/-! ## Maps from the start on -/

/-- A map with one height everywhere, or a part cut out of any other map. -/
inductive IsOrigin : HeightMap → Prop where
  | created (logical : Rectangle) (height : Height) (scale : Scale) :
    IsOrigin (create logical height scale)
  | cut {source map : HeightMap} {rectangle : Rectangle} (ran : source.cutout rectangle = .ok map) :
    IsOrigin map

/-- A map at the start has the shape of a fresh one. -/
theorem IsOrigin.sameShape_create (origin : map.IsOrigin) :
    ∃ height, (create map.logical height map.scale).SameShape map := by
  cases origin with
  | created logical height scale => exact ⟨height, .refl _⟩
  | cut ran =>
    have same := (fits_zipWith _).ok ran
    refine ⟨0, ?_⟩
    rw [same.logical, same.scale]
    exact same

/-- After any sequence of operations a map has kept its scale and has a sample for every point of its
raster. The raster is aligned if the map was laid out anew after the last move and the last stretch; at
scale one, where nothing is rounded, it is aligned always. -/
theorem runAll_placement {operations : List Operation} (origin : map.IsOrigin)
    (ran : map.runAll operations = .ok after) :
    after.scale = map.scale ∧
    after.samples.size = after.raster.size.width * after.raster.size.height ∧
    (operations.foldl Operation.settles true = true →
      after.raster = after.logical.scaled after.scale) ∧
    (map.scale = 1.0 → map.logical.Representable →
      (∀ operation ∈ operations, operation.Representable) →
      after.raster = after.logical.scaled after.scale) := by
  obtain ⟨height, same⟩ := origin.sameShape_create
  have placed : Placed true map.scale map :=
    ⟨rfl, same.full (isFull_filled _ _ _ _), fun _ => same.isAligned (isAligned_create _ _ _)⟩
  obtain ⟨scale, full, aligned⟩ := placed.runAll ran
  refine ⟨scale, full, aligned, fun atOne inRange all => ?_⟩
  have unscaled : map.IsUnscaled := by
    rw [atOne] at same
    exact (isUnscaled_create inRange height).sameShape same
  exact (unscaled.runAll all ran).isAligned

def speck : HeightMap := create ⟨⟨0, 0⟩, ⟨1, 1⟩⟩ 0 0.5

def Operation.alone (change : MapEdit) : Operation :=
  .edit change (.ofSlots [] (RasterTable.ofSize 0).get) .empty

def Operation.renewal : List Operation :=
  [.alone (.move ⟨1, 0⟩), .alone (.rescale 2.0 2.0), .alone (.resize ⟨⟨-1, 0⟩, ⟨3, 2⟩⟩ 7)]

theorem speck_placement : ∃ after, speck.runAll Operation.renewal = .ok after ∧ after.scale = 0.5 ∧
    after.samples.size = after.raster.size.width * after.raster.size.height ∧
    after.raster = after.logical.scaled after.scale := by
  have ended : (speck.runAll Operation.renewal).isOk = true := by decide +kernel
  cases ran : speck.runAll Operation.renewal with
  | error breach =>
    rw [ran] at ended
    cases ended
  | ok after =>
    obtain ⟨scale, full, aligned, -⟩ := runAll_placement (.created _ _ _) ran
    exact ⟨after, rfl, scale, full, aligned rfl⟩

/-- Two moves by one point take the logical rectangle over to the next sample. Each of them is half a
sample, which is rounded to none. -/
theorem speck_drifts : ∃ after,
    speck.runAll [.alone (.move ⟨1, 0⟩), .alone (.move ⟨1, 0⟩)] = .ok after ∧
    after.logical = ⟨⟨2, 0⟩, ⟨1, 1⟩⟩ ∧ after.raster = ⟨⟨0, 0⟩, ⟨1, 1⟩⟩ ∧
    after.logical.scaled after.scale = ⟨⟨1, 0⟩, ⟨1, 1⟩⟩ := by
  refine ⟨_, rfl, ?_, ?_, ?_⟩
  all_goals decide +kernel

end HeightMap

end Terrain
