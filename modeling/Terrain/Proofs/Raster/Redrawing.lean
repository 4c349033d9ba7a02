import Terrain.Proofs.Plane.Overlaps
import Terrain.Proofs.Raster.Samples
import Terrain.Proofs.Raster.Shapes

/-!
# Redrawn rasters

Operations in place leave a raster where it is and give its samples new heights. Here they are seen from
the points of the plane, for rasters of any scale and at any place.

* `HeightProfile.heightAt` — the height of a profile at a coordinate.
* `HeightMap.Redraws`, `HeightProfile.Redraws` — a computation ends with the raster redrawn.
* `HeightMap.redraws_updateCells`, `HeightProfile.redraws_updateCells` — redrawing a part of a raster.
* `HeightMap.redraws_overlay`, `HeightProfile.redraws_overlay` — redrawing what it shares with an area.
-/

namespace Terrain

/-! ## Maps -/

namespace HeightMap

variable {map : HeightMap} {x y : Int}

/-- A computation ends with the map redrawn: in its place, with these heights. -/
def Redraws (map : HeightMap) (result : Except Breach HeightMap) (heights : Int → Int → Height) :
    Prop :=
  ∃ after, result = .ok after ∧ map.SameShape after ∧
    ∀ x y, map.raster.Covers x y → after.heightAt x y = heights x y

theorem Redraws.congr {result : Except Breach HeightMap} {heights heights' : Int → Int → Height}
    (redraws : map.Redraws result heights)
    (same : ∀ x y, map.raster.Covers x y → heights x y = heights' x y) :
    map.Redraws result heights' := by
  obtain ⟨after, ended, shape, drawn⟩ := redraws
  exact ⟨after, ended, shape, fun x y covered => (drawn x y covered).trans (same x y covered)⟩

/-- The samples of an area are redrawn, each by its own function. -/
theorem redraws_updateCells (full : map.IsFull) {area : Rectangle}
    {change : Point → Except Breach (Height → Height)} {f : Point → Height → Height}
    (inside : ∀ point ∈ area.cells, map.bounds.Covers point.x point.y)
    (each : ∀ point ∈ area.cells, change point = .ok (f point)) :
    map.Redraws (map.updateCells area change) fun x y =>
      if ⟨x - map.raster.position.x, y - map.raster.position.y⟩ ∈ area.cells then
        f ⟨x - map.raster.position.x, y - map.raster.position.y⟩ (map.heightAt x y)
      else map.heightAt x y := by
  obtain ⟨samples, ran, size, heights⟩ := exists_updateCells full inside each
  exact ⟨_, ran, sameShape_withSamples (size.trans full.symm), heights⟩

/-- What a map shares with a rectangle, if nothing is moved or nothing is shared. -/
theorem mem_overlap (addressable : map.raster.Addressable) {raster : Rectangle}
    (clear : map.raster.Negatable ∨ ¬map.raster.Meet raster) {point : Point} :
    point ∈ (map.overlap raster).cells ↔
      map.raster.Covers (point.x + map.raster.position.x) (point.y + map.raster.position.y) ∧
        raster.Covers (point.x + map.raster.position.x) (point.y + map.raster.position.y) := by
  refine (Rectangle.mem_overlap addressable).trans ?_
  rcases clear with negatable | apart
  · rw [slip_of_ne negatable.1, slip_of_ne negatable.2, Int.add_zero, Int.add_zero]
  · exact iff_of_false (fun shared => apart ⟨_, _, shared⟩) fun shared => apart ⟨_, _, shared⟩

/-- The samples that a map shares with a rectangle are redrawn, each by its own function. -/
theorem redraws_overlay (full : map.IsFull) (addressable : map.raster.Addressable)
    {raster : Rectangle} (clear : map.raster.Negatable ∨ ¬map.raster.Meet raster)
    {change : Point → Except Breach (Height → Height)} {f : Int → Int → Height → Height}
    (each : ∀ point,
      map.raster.Covers (point.x + map.raster.position.x) (point.y + map.raster.position.y) →
      raster.Covers (point.x + map.raster.position.x) (point.y + map.raster.position.y) →
      change point = .ok (f (point.x + map.raster.position.x) (point.y + map.raster.position.y))) :
    map.Redraws (map.updateCells (map.overlap raster) change) fun x y =>
      if raster.Covers x y then f x y (map.heightAt x y) else map.heightAt x y := by
  have area {point : Point} := @mem_overlap _ addressable _ clear point
  have redraws := redraws_updateCells full (fun point member => covers_bounds.2 (area.1 member).1)
    fun point member => each point (area.1 member).1 (area.1 member).2
  refine redraws.congr fun x y covered => ?_
  simp only [area, Int.sub_add_cancel, covered, true_and]

end HeightMap

/-! ## Profiles -/

namespace HeightProfile

variable {profile : HeightProfile} {x : Int}

def heightAt (profile : HeightProfile) (x : Int) : Height :=
  profile.samples.getD (x - profile.interval.start).toNat 0

theorem sampleAt_eq (covered : profile.interval.Covers x) :
    profile.sampleAt (x - profile.interval.start) = .ok (profile.heightAt x) := by
  have place : 0 ≤ x - profile.interval.start ∧
      x - profile.interval.start < profile.interval.length := by
    unfold Interval.Covers Between at covered
    omega
  rw [sampleAt, indexOf, if_pos place]
  rfl

theorem index_lt (full : profile.IsFull) (covered : profile.interval.Covers x) :
    (x - profile.interval.start).toNat < profile.samples.size := by
  unfold Interval.Covers Between at covered
  rw [full]
  omega

theorem heightAt_mapCells (full : profile.IsFull) (f : Nat → Height → Height)
    (covered : profile.interval.Covers x) :
    (profile.mapCells f).heightAt x =
      f (x - profile.interval.start).toNat (profile.heightAt x) := by
  have place := index_lt full covered
  simp only [heightAt, mapCells, Array.getD_eq_getD_getElem?, Array.getElem?_mapIdx,
    Array.getElem?_eq_getElem place, Option.map_some, Option.getD_some]

/-- A computation ends with the profile redrawn: in its place, with these heights. -/
def Redraws (profile : HeightProfile) (result : Except Breach HeightProfile)
    (heights : Int → Height) : Prop :=
  ∃ after, result = .ok after ∧ profile.SameShape after ∧
    ∀ x, profile.interval.Covers x → after.heightAt x = heights x

theorem Redraws.congr {result : Except Breach HeightProfile} {heights heights' : Int → Height}
    (redraws : profile.Redraws result heights)
    (same : ∀ x, profile.interval.Covers x → heights x = heights' x) :
    profile.Redraws result heights' := by
  obtain ⟨after, ended, shape, drawn⟩ := redraws
  exact ⟨after, ended, shape, fun x covered => (drawn x covered).trans (same x covered)⟩

/-- Changing the samples at a list of local indices, each of them once. -/
theorem foldlM_modify {size : Nat} {change : Int → Except Breach (Height → Height)}
    {f : Int → Height → Height} {positions : List Int} (once : positions.Nodup)
    (inside : ∀ x ∈ positions, Between 0 size x) (each : ∀ x ∈ positions, change x = .ok (f x))
    {samples : Array Height} (full : samples.size = size) :
    ∃ after, positions.foldlM (fun (samples : Array Height) x => do
        let f ← change x
        if x < 0 ∨ (size : Int) ≤ x then throw Breach.outsideProfile
        return samples.modify x.toNat f) samples = .ok after ∧ after.size = size ∧
      ∀ x, Between 0 size x → after.getD x.toNat 0 =
        if x ∈ positions then f x (samples.getD x.toNat 0) else samples.getD x.toNat 0 := by
  induction positions generalizing samples with
  | nil => exact ⟨samples, rfl, full, fun x _ => by simp⟩
  | cons x positions ih =>
    rw [List.nodup_cons] at once
    rw [List.forall_mem_cons] at inside each
    have changed : (samples.modify x.toNat (f x)).size = size := by rw [Array.size_modify, full]
    obtain ⟨after, ran, size', heights⟩ := ih once.2 inside.2 each.2 changed
    obtain ⟨low, high⟩ := inside.1
    refine ⟨after, ?_, size', fun x' inside' => ?_⟩
    · have here : ¬(x < 0 ∨ (size : Int) ≤ x) := by omega
      rw [List.foldlM_cons, each.1, ← ran]
      change (do
        if x < 0 ∨ (size : Int) ≤ x then throw Breach.outsideProfile
        return samples.modify x.toNat (f x)) >>= _ = _
      rw [if_neg here]
      rfl
    obtain ⟨low', high'⟩ := inside'
    have place : x'.toNat < samples.size := by omega
    rw [heights x' ⟨low', high'⟩]
    simp only [Array.getD_eq_getD_getElem?, Array.getElem?_modify, List.mem_cons]
    by_cases same : x' = x
    · subst same
      simp [once.1, place]
    · have different : x.toNat ≠ x'.toNat := by omega
      simp [same, different]

/-- The samples at some local indices are redrawn, each by its own function. -/
theorem redraws_updateCells (full : profile.IsFull) {positions : List Int}
    {change : Int → Except Breach (Height → Height)} {f : Int → Height → Height}
    (once : positions.Nodup) (inside : ∀ x ∈ positions, Between 0 profile.interval.length x)
    (each : ∀ x ∈ positions, change x = .ok (f x)) :
    profile.Redraws (profile.updateCells positions change) fun x =>
      if x - profile.interval.start ∈ positions then
        f (x - profile.interval.start) (profile.heightAt x)
      else profile.heightAt x := by
  rw [← full] at inside
  obtain ⟨samples, ran, size, heights⟩ := foldlM_modify once inside each rfl
  refine ⟨{ profile with samples }, ?_, sameShape_withSamples size, fun x covered => ?_⟩
  · unfold updateCells
    dsimp only
    rw [ran]
    rfl
  · have inside' : Between 0 profile.samples.size (x - profile.interval.start) := by
      unfold Interval.Covers Between at covered
      rw [full]
      unfold Between
      omega
    exact heights _ inside'

theorem indices_eq {interval : Interval} (length : IsCoordinate interval.length)
    (stop : IsCoordinate interval.stop) :
    indices interval = .ok (Rectangle.span interval.start interval.stop) := by
  have reached : checkCoordinate (interval.start + interval.length) = .ok interval.stop :=
    checkCoordinate_eq stop
  rw [indices, wrapCoordinate_eq length, reached]
  rfl

/-- What a profile shares with an interval. -/
theorem exists_overlap (addressable : profile.interval.Addressable)
    (negatable : profile.interval.start ≠ coordinateMin) (interval : Interval) :
    ∃ positions, profile.overlap interval = .ok positions ∧ positions.Nodup ∧
      ∀ x, x ∈ positions ↔ profile.interval.Covers (x + profile.interval.start) ∧
        interval.Covers (x + profile.interval.start) := by
  have opposite : narrowCoordinate (-profile.interval.start) = -profile.interval.start := by
    rw [narrowCoordinate_neg addressable.start, slip_of_ne negatable, Int.sub_zero]
  have inRange : IsCoordinate (-profile.interval.start) :=
    opposite ▸ isCoordinate_narrowCoordinate _
  have shared : profile.overlap interval = indices (profile.interval.overlap interval) := by
    rw [overlap, checkCoordinate_eq inRange, Interval.overlap, opposite]
    rfl
  rw [shared, indices_eq (Interval.isCoordinate_length_overlap addressable)
    (Interval.isCoordinate_stop_overlap addressable)]
  refine ⟨_, rfl, Rectangle.nodup_span _ _, fun x => ?_⟩
  have covers := @Interval.covers_overlap _ interval x addressable
  rw [slip_of_ne negatable, Int.add_zero] at covers
  exact Rectangle.mem_span.trans covers

/-- The samples that a profile shares with an interval are redrawn, each by its own function. -/
theorem redraws_overlay (full : profile.IsFull) (addressable : profile.interval.Addressable)
    (negatable : profile.interval.start ≠ coordinateMin) {interval : Interval}
    {change : Int → Except Breach (Height → Height)} {f : Int → Height → Height}
    (each : ∀ x, profile.interval.Covers (x + profile.interval.start) →
      interval.Covers (x + profile.interval.start) →
      change x = .ok (f (x + profile.interval.start))) :
    profile.Redraws (profile.overlap interval >>= (profile.updateCells · change)) fun x =>
      if interval.Covers x then f x (profile.heightAt x) else profile.heightAt x := by
  obtain ⟨positions, ran, once, area⟩ := exists_overlap addressable negatable interval
  have inside (x : Int) (member : x ∈ positions) : Between 0 profile.interval.length x := by
    have covered := ((area x).1 member).1
    unfold Interval.Covers Between at covered
    unfold Between
    omega
  have redraws := redraws_updateCells full once inside fun x member =>
    each x ((area x).1 member).1 ((area x).1 member).2
  rw [ran]
  refine Redraws.congr redraws fun x covered => ?_
  simp only [area, Int.sub_add_cancel, covered, true_and]

end HeightProfile

end Terrain
