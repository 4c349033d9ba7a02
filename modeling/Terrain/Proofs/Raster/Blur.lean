import Terrain.Proofs.Line.Blur
import Terrain.Proofs.Raster.Overlays

/-!
# Blurs by points

Where a plain map covers the whole neighbourhood of a point, its blur there is the mean over the
neighbourhood, first along rows and then along columns. The edges of the raster play no part.

* `HeightMap.heightAt_blur` — the blur at a point.
* `HeightMap.draws_convexityMap` — the difference from the blur.
-/

namespace Terrain

theorem Line.windowMean_sub (radius : Nat) (heights : Int → Height) (place corner : Int) :
    windowMean radius heights (place - corner) =
      windowMean radius (fun at' => heights (at' - corner)) place := by
  unfold windowMean windowSum
  congr 1
  refine Finset.sum_congr rfl fun step _ => congrArg heights ?_
  omega

namespace HeightMap

variable {map : HeightMap} {x y : Int} {radius : Nat}

theorem IsPlain.blurIn (plain : map.IsPlain) (radius : Extent) (direction : Direction) :
    (map.blurIn radius direction).IsPlain := by
  cases direction with
  | horizontal =>
    exact plain.withSamples (Grid.size_mapRows (Line.size_blurLine _) plain.full)
  | vertical => exact plain.withSamples Grid.size_mapColumns

theorem raster_blurIn (map : HeightMap) (radius : Extent) (direction : Direction) :
    (map.blurIn radius direction).raster = map.raster := by
  cases direction <;> rfl

/-- Place of a point that is covered, as column and row. -/
theorem heightAt_eq (map : HeightMap) (x y : Int) : map.heightAt x y =
    map.samples.getD ((x - map.raster.position.x).toNat +
      map.raster.size.width * (y - map.raster.position.y).toNat) 0 := rfl

theorem heightAt_blurIn_horizontal (plain : map.IsPlain) (inRange : radius ≤ extentMax)
    (left : map.raster.Covers (x - radius) y) (right : map.raster.Covers (x + radius) y) :
    (map.blurIn radius .horizontal).heightAt x y =
      Line.windowMean radius (fun column => map.heightAt column y) x := by
  unfold Rectangle.Covers Between at left right
  have full : map.samples.size = map.raster.size.width * map.raster.size.height := plain.full
  have inside : (y - map.raster.position.y).toNat < map.raster.size.height := by omega
  have place : (((x - map.raster.position.x).toNat : Nat) : Int) = x - map.raster.position.x := by omega
  have size := Grid.size_row full inside
  rw [heightAt_eq, raster_blurIn]
  simp only [blurIn, plain.scale, scaledExtent_one inRange]
  rw [Array.getD_eq_getD_getElem?, width, height, Grid.getElem?_mapRows (Line.size_blurLine _) full _
    inside, ← Array.getD_eq_getD_getElem?, Line.getD_blurLine_of_inside, place, Line.windowMean_sub]
  · refine Line.windowMean_congr fun column above below => ?_
    rw [heightAt_eq, Array.getD_eq_getD_getElem?, Array.getD_eq_getD_getElem?,
      Grid.getElem?_row full _ inside]
    omega
  all_goals omega

theorem heightAt_blurIn_vertical (plain : map.IsPlain) (inRange : radius ≤ extentMax)
    (above : map.raster.Covers x (y - radius)) (below : map.raster.Covers x (y + radius)) :
    (map.blurIn radius .vertical).heightAt x y =
      Line.windowMean radius (fun row => map.heightAt x row) y := by
  unfold Rectangle.Covers Between at above below
  have column : (x - map.raster.position.x).toNat < map.raster.size.width := by omega
  have inside : (y - map.raster.position.y).toNat < map.raster.size.height := by omega
  have place : (((y - map.raster.position.y).toNat : Nat) : Int) = y - map.raster.position.y := by omega
  rw [heightAt_eq, raster_blurIn]
  simp only [blurIn, plain.scale, scaledExtent_one inRange]
  rw [width, height]
  refine (Grid.getD_mapColumns column inside).trans ?_
  change (Line.blurLine radius _).getD _ 0 = _
  rw [Line.getD_blurLine_of_inside, place, Line.windowMean_sub]
  · refine Line.windowMean_congr fun row above below => ?_
    rw [heightAt_eq]
    refine Grid.getD_column ?_
    omega
  · omega
  · rw [Grid.size_column]
    omega

theorem IsPlain.blur (plain : map.IsPlain) (radius : Extent) : (map.blur radius).IsPlain :=
  (plain.blurIn radius .horizontal).blurIn radius .vertical

/-- The blur at a point whose neighbourhood is covered. -/
theorem heightAt_blur (plain : map.IsPlain) (inRange : radius ≤ extentMax)
    (first : map.raster.Covers (x - radius) (y - radius))
    (last : map.raster.Covers (x + radius) (y + radius)) :
    (map.blur radius).heightAt x y =
      Line.windowMean radius
        (fun row => Line.windowMean radius (fun column => map.heightAt column row) x) y := by
  unfold Rectangle.Covers Between at first last
  rw [HeightMap.blur, heightAt_blurIn_vertical (plain.blurIn _ _) inRange]
  · refine Line.windowMean_congr fun row above below => ?_
    refine heightAt_blurIn_horizontal plain inRange ?_ ?_
    all_goals
      unfold Rectangle.Covers Between
      omega
  all_goals
    rw [raster_blurIn]
    unfold Rectangle.Covers Between
    omega

theorem draws_convexityMap (plain : map.IsPlain) (radius : Extent) :
    Draws (map.convexityMap radius) map.raster fun x y =>
      addHeights (negHeight ((map.blur radius).heightAt x y)) (map.heightAt x y) := by
  obtain ⟨inverse, ended, plainInverse, placed, heights⟩ :=
    draws_mapSamples (plain.blur radius) negHeight
  cases ended
  have placed : ((map.blur radius).mapSamples negHeight).raster = map.raster := rfl
  have draws := draws_zipWith plainInverse plain addHeights
  rw [placed] at draws
  refine draws.congr fun x y covered => ?_
  rw [if_pos covered, heights x y covered]

end HeightMap

end Terrain
