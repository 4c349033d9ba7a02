import Terrain.Proofs.Line.Words
import Terrain.Proofs.Raster.Blur
import Terrain.Proofs.Raster.Shapes

/-!
# Blurs are window means

The blur of a map takes means along rows and then means of these along columns; the blur of a profile
takes means along its only line. Both repeat the samples at the edges, for windows of any size.

* `HeightMap.nearest`, `HeightProfile.nearest` — samples, repeated at the edges.
* `HeightMap.WindowMeans`, `HeightProfile.WindowMeans` — a raster whose samples are the window means of
  another one.
* `blurs_are_window_means` — blurs are such rasters.
-/

namespace Terrain

theorem scaledExtent_le (scale : Scale) (extent : Extent) : scaledExtent scale extent ≤ extentMax := by
  have range := Number.narrowBy_mem Number.truncateWhole 0 extentMax (Float.ofNat extent * scale)
    (by decide) (by decide)
  exact Int.toNat_le.2 range.2

/-! ## Grids -/

namespace Grid

variable {α : Type} [Inhabited α] {width height : Nat} {kernel : Array α → Array α} {cells : Array α}
  {x : Nat} {Holds : α → Prop}

theorem forall_mem_column (full : cells.size = width * height) (inColumn : x < width)
    (all : ∀ cell ∈ cells, Holds cell) : ∀ cell ∈ column width height cells x, Holds cell := by
  intro cell member
  obtain ⟨y, inside, rfl⟩ := Array.mem_map.1 member
  have place := place_lt inColumn (Array.mem_range.1 inside)
  rw [Nat.mul_comm y, Array.getD_eq_getD_getElem?, Array.getElem?_eq_getElem (full ▸ place)]
  exact all _ (Array.getElem_mem _)

theorem forall_mem_mapColumns (full : cells.size = width * height)
    (sized : ∀ line, (kernel line).size = line.size) (all : ∀ cell ∈ cells, Holds cell)
    (keeps : ∀ line, (∀ cell ∈ line, Holds cell) → ∀ cell ∈ kernel line, Holds cell) :
    ∀ cell ∈ mapColumns width height kernel cells, Holds cell := by
  intro cell member
  obtain ⟨place, inside, rfl⟩ := Array.mem_map.1 member
  have inside := Array.mem_range.1 inside
  have inColumn : place % width < width := Nat.mod_lt _ (Nat.pos_of_lt_mul_right inside)
  have inRow : place / width < height := Nat.div_lt_of_lt_mul inside
  have size : (kernel (column width height cells (place % width))).size = height := by
    rw [sized, size_column]
  have line := keeps _ (forall_mem_column full inColumn all)
  simp only [Array.getD_eq_getD_getElem?, Array.getElem?_map, Array.getElem?_range, inColumn, if_true,
    Option.map_some, Option.getD_some]
  rw [Array.getElem?_eq_getElem (by rwa [size])]
  exact line _ (Array.getElem_mem _)

end Grid

/-! ## Maps -/

namespace HeightMap

variable {map : HeightMap} {x y : Nat} {radius : Extent}

/-- Sample at local coordinates, which are moved into the map. -/
def nearest (map : HeightMap) (x y : Int) : Height :=
  map.samples.getD (min x.toNat (map.raster.size.width - 1) +
    map.raster.size.width * min y.toNat (map.raster.size.height - 1)) 0

/-- Lines that a blur works on: the rows, and the columns of what it makes of them. -/
def blurredLines (map : HeightMap) (radius : Extent) : List (Array Height) :=
  (List.range map.height).map (Grid.row map.width map.samples) ++
    (List.range map.width).map
      (Grid.column map.width map.height (map.blurIn radius .horizontal).samples)

/-- A map of the same place whose samples are means of means: along the column over the means along the
rows, with the samples at the edges repeated. No sum on the way leaves its word. -/
structure WindowMeans (map : HeightMap) (radius : Extent) (after : HeightMap) : Prop where
  logical : after.logical = map.logical
  raster : after.raster = map.raster
  scale : after.scale = map.scale
  size : after.samples.size = map.samples.size
  samples : ∀ x y : Nat, x < map.raster.size.width → y < map.raster.size.height →
    after.sampleAt x y = .ok (Line.windowMean (scaledExtent map.scale radius) (fun row =>
      Line.windowMean (scaledExtent map.scale radius) (fun column => map.nearest column row) x) y)
  words : (∀ height ∈ map.samples, Line.IsSample height) → ∀ line ∈ map.blurredLines radius,
    Line.blurWords (scaledExtent map.scale radius) line =
      .ok (Line.blurLine (scaledExtent map.scale radius) line)
  between : ∀ low high, (∀ height ∈ map.samples, low ≤ height ∧ height ≤ high) →
    ∀ height ∈ after.samples, low ≤ height ∧ height ≤ high
  flat : ∀ level, (∀ height ∈ map.samples, height = level) → after = map

theorem sampleAt_of_inside (inColumn : x < map.raster.size.width) (inside : y < map.raster.size.height) :
    map.sampleAt x y = .ok (map.samples.getD (x + map.raster.size.width * y) 0) := by
  have covered : (⟨.origin, map.raster.size⟩ : Rectangle).Covers x y := by
    simp only [Rectangle.Covers, Between, Point.origin]
    omega
  rw [sampleAt, indexOf_eq covered]
  rfl

/-- A row continued beyond its ends. -/
theorem replicated_row (full : map.IsFull) (inColumn : x < map.raster.size.width)
    (inside : y < map.raster.size.height) (column : Int) :
    Line.replicated (Grid.row map.raster.size.width map.samples y) column = map.nearest column y := by
  have place : min column.toNat (map.raster.size.width - 1) < map.raster.size.width := by omega
  have here : min y (map.raster.size.height - 1) = y := by omega
  rw [Line.replicated, Grid.size_row full inside, nearest, Array.getD_eq_getD_getElem?,
    Grid.getElem?_row full place inside, Int.toNat_natCast, here, Array.getD_eq_getD_getElem?]

/-- What a blur along the rows has at any row, also at those that are repeated. -/
theorem nearest_blurIn_horizontal (full : map.IsFull) (inColumn : x < map.raster.size.width)
    (inside : y < map.raster.size.height) (row : Int) :
    (map.blurIn radius .horizontal).nearest x row =
      Line.windowMean (scaledExtent map.scale radius) (fun column => map.nearest column row) x := by
  have inRows : min row.toNat (map.raster.size.height - 1) < map.raster.size.height := by omega
  have here : min x (map.raster.size.width - 1) = x := by omega
  -- a row that is moved into the map already is not moved again
  have same (column : Int) : map.nearest column ((min row.toNat (map.raster.size.height - 1) : Nat) : Int) =
      map.nearest column row := by
    unfold nearest
    rw [Int.toNat_natCast, Nat.min_assoc, Nat.min_self]
  calc (map.blurIn radius .horizontal).nearest x row
    _ = (Line.blurLine (scaledExtent map.scale radius) (Grid.row map.raster.size.width map.samples
          (min row.toNat (map.raster.size.height - 1)))).getD x 0 := by
        rw [nearest, raster_blurIn, Int.toNat_natCast, here, Array.getD_eq_getD_getElem?,
          Array.getD_eq_getD_getElem?]
        exact congrArg (·.getD 0) (Grid.getElem?_mapRows (Line.size_blurLine _) full inColumn inRows)
    _ = Line.windowMean (scaledExtent map.scale radius) (fun column => map.nearest column row) x := by
        rw [Line.getD_blurLine (by rwa [Grid.size_row full inRows])]
        refine Line.windowMean_congr fun column _ _ => ?_
        rw [replicated_row full inColumn inRows, same]

/-- The blur of a map, sample by sample. -/
theorem sampleAt_blur (full : map.IsFull) (inColumn : x < map.raster.size.width)
    (inside : y < map.raster.size.height) :
    (map.blur radius).sampleAt x y =
      .ok (Line.windowMean (scaledExtent map.scale radius) (fun row =>
        Line.windowMean (scaledExtent map.scale radius) (fun column => map.nearest column row) x) y) := by
  have same : map.SameShape (map.blur radius) := sameShape_blur radius
  have blurred : (map.blur radius).samples.getD (x + map.raster.size.width * y) 0 =
      (Line.blurLine (scaledExtent map.scale radius) (Grid.column map.raster.size.width
        map.raster.size.height (map.blurIn radius .horizontal).samples x)).getD y 0 :=
    Grid.getD_mapColumns inColumn inside
  rw [sampleAt_of_inside (same.raster ▸ inColumn) (same.raster ▸ inside), same.raster, blurred,
    Line.getD_blurLine (by rwa [Grid.size_column])]
  refine congrArg Except.ok (Line.windowMean_congr fun row _ _ => ?_)
  rw [← nearest_blurIn_horizontal full inColumn inside]
  -- the column repeats its ends where the map repeats its rows
  have place : min row.toNat (map.raster.size.height - 1) < map.raster.size.height := by omega
  have here : min x (map.raster.size.width - 1) = x := by omega
  rw [Line.replicated, Grid.size_column, nearest, raster_blurIn, Int.toNat_natCast, here]
  exact Grid.getD_column place

theorem blurWords_of_mem (full : map.IsFull) (samples : ∀ height ∈ map.samples, Line.IsSample height)
    {line : Array Height} (member : line ∈ map.blurredLines radius) :
    Line.blurWords (scaledExtent map.scale radius) line =
      .ok (Line.blurLine (scaledExtent map.scale radius) line) := by
  -- all lines consist of samples: the rows of the map, and the columns of what the rows were blurred to
  apply Line.blurWords_eq _ (scaledExtent_le _ _)
  rw [blurredLines, List.mem_append, List.mem_map, List.mem_map] at member
  obtain ⟨y, -, rfl⟩ | ⟨x, inColumn, rfl⟩ := member
  · exact Grid.forall_mem_row samples
  · have rows : ∀ height ∈ (map.blurIn radius .horizontal).samples, Line.IsSample height :=
      Grid.forall_mem_mapRows samples fun _ all => Line.blurLine_mem all
    have size := Grid.size_mapRows (Line.size_blurLine (scaledExtent map.scale radius)) full
    exact Grid.forall_mem_column size (List.mem_range.1 inColumn) rows

theorem blur_mem (full : map.IsFull) {low high : Height}
    (between : ∀ height ∈ map.samples, low ≤ height ∧ height ≤ high) :
    ∀ height ∈ (map.blur radius).samples, low ≤ height ∧ height ≤ high := by
  have rows : ∀ height ∈ (map.blurIn radius .horizontal).samples, low ≤ height ∧ height ≤ high :=
    Grid.forall_mem_mapRows between fun _ all => Line.blurLine_mem all
  have size := Grid.size_mapRows (Line.size_blurLine (scaledExtent map.scale radius)) full
  exact Grid.forall_mem_mapColumns size (Line.size_blurLine _) rows fun _ all => Line.blurLine_mem all

/-- A map of one height is its own blur. -/
theorem blur_of_flat (full : map.IsFull) {level : Height} (flat : ∀ height ∈ map.samples, height = level) :
    map.blur radius = map := by
  have same : map.SameShape (map.blur radius) := sameShape_blur radius
  have levels : ∀ height ∈ (map.blur radius).samples, level ≤ height ∧ height ≤ level :=
    blur_mem full fun height member => by simp [flat height member]
  have size : (map.blur radius).samples.size = map.samples.size := by
    rw [same.full full, same.raster, full]
  have samples : (map.blur radius).samples = map.samples := Line.eq_of_flat size flat levels
  calc map.blur radius
    _ = { map with samples := (map.blur radius).samples } := rfl
    _ = map := by rw [samples]

theorem windowMeans_blur (full : map.IsFull) (radius : Extent) :
    map.WindowMeans radius (map.blur radius) where
  logical := rfl
  raster := rfl
  scale := rfl
  size := ((sameShape_blur radius).full full).trans full.symm
  samples _ _ inColumn inside := sampleAt_blur full inColumn inside
  words samples _ member := blurWords_of_mem full samples member
  between _ _ between := blur_mem full between
  flat _ flat := blur_of_flat full flat

end HeightMap

/-! ## Profiles -/

namespace HeightProfile

variable {profile : HeightProfile} {x : Nat} {radius : Extent}

/-- Sample at a local index, which is moved into the profile. -/
def nearest (profile : HeightProfile) (x : Int) : Height :=
  profile.samples.getD (min x.toNat (profile.interval.length - 1)) 0

/-- A profile over the same interval whose samples are means of windows, with the samples at both ends
repeated. No sum on the way leaves its word. -/
structure WindowMeans (profile : HeightProfile) (radius : Extent) (after : HeightProfile) : Prop where
  interval : after.interval = profile.interval
  scale : after.scale = profile.scale
  size : after.samples.size = profile.samples.size
  samples : ∀ x : Nat, x < profile.interval.length →
    after.sampleAt x = .ok (Line.windowMean (scaledExtent profile.scale radius) profile.nearest x)
  words : (∀ height ∈ profile.samples, Line.IsSample height) →
    Line.blurWords (scaledExtent profile.scale radius) profile.samples =
      .ok (Line.blurLine (scaledExtent profile.scale radius) profile.samples)
  between : ∀ low high, (∀ height ∈ profile.samples, low ≤ height ∧ height ≤ high) →
    ∀ height ∈ after.samples, low ≤ height ∧ height ≤ high
  flat : ∀ level, (∀ height ∈ profile.samples, height = level) → after = profile

theorem sampleAt_blur (full : profile.IsFull) (inside : x < profile.interval.length) :
    (profile.blur radius).sampleAt x =
      .ok (Line.windowMean (scaledExtent profile.scale radius) profile.nearest x) := by
  have place : (profile.blur radius).indexOf x = .ok x := if_pos (by
    have same : (profile.blur radius).interval = profile.interval := rfl
    rw [same]
    omega)
  have replicated : Line.replicated profile.samples = profile.nearest := by
    funext at'
    rw [Line.replicated, full, nearest]
  have blurred := @Line.getD_blurLine profile.samples (scaledExtent profile.scale radius) x
    (full ▸ inside)
  rw [replicated] at blurred
  rw [sampleAt, place, ← blurred]
  rfl

/-- A profile of one height is its own blur. -/
theorem blur_of_flat {level : Height} (flat : ∀ height ∈ profile.samples, height = level) :
    profile.blur radius = profile := by
  have samples : (profile.blur radius).samples = profile.samples :=
    Line.eq_of_flat (Line.size_blurLine _ _) flat
      (Line.blurLine_mem fun height member => by simp [flat height member])
  calc profile.blur radius
    _ = { profile with samples := (profile.blur radius).samples } := rfl
    _ = profile := by rw [samples]

theorem windowMeans_blur (full : profile.IsFull) (radius : Extent) :
    profile.WindowMeans radius (profile.blur radius) where
  interval := rfl
  scale := rfl
  size := Line.size_blurLine _ _
  samples _ inside := sampleAt_blur full inside
  words samples := Line.blurWords_eq samples (scaledExtent_le _ _)
  between _ _ between := Line.blurLine_mem between
  flat _ flat := blur_of_flat flat

end HeightProfile

/-- The blur of a map takes means along the columns over means along the rows, and the blur of a profile
takes means along it, whatever the radius: nothing leaves its word, nothing leaves the range of the
samples, and flat rasters stay as they are. -/
theorem blurs_are_window_means (radius : Extent) :
    (∀ map : HeightMap, map.IsFull → map.WindowMeans radius (map.blur radius)) ∧
      ∀ profile : HeightProfile, profile.IsFull → profile.WindowMeans radius (profile.blur radius) :=
  ⟨fun _ full => HeightMap.windowMeans_blur full radius,
    fun _ full => HeightProfile.windowMeans_blur full radius⟩

def unevenMap : HeightMap :=
  ⟨⟨⟨5, 5⟩, ⟨3, 2⟩⟩, ⟨⟨5, 5⟩, ⟨3, 2⟩⟩, 1.0, #[-9, 4, 0, 2, -32768, 7]⟩

/-- Windows wider than the map. Means below zero are truncated upwards. -/
theorem unevenMap_window_means :
    unevenMap.IsFull ∧ unevenMap.WindowMeans 2 (unevenMap.blur 2) ∧
      (unevenMap.blur 2).sampleAt 0 1 = .ok (-3932) := by
  have full : unevenMap.IsFull := rfl
  have means := (blurs_are_window_means 2).1 unevenMap full
  have radius : scaledExtent unevenMap.scale 2 = 2 := scaledExtent_one (by decide)
  refine ⟨full, means, ?_⟩
  rw [show (0 : Int) = (0 : Nat) from rfl, show (1 : Int) = (1 : Nat) from rfl,
    means.samples 0 1 (by decide) (by decide), radius]
  decide

end Terrain
