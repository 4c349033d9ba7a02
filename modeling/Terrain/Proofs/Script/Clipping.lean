import Terrain.Proofs.Plane.Overlaps
import Terrain.Script.Parameters

/-!
# The render window

Along an axis without bound the window is what was requested. Along a bounded axis it is clipped to the
map, but a request that begins before the map is first moved to begin with it, and keeps its length.

* `MapSize.wanted` — the requested size, or what stands for it.
* `MapSize.Clips` — the window along one axis.
* `Parameters.window_clipped` — both axes of the render window.
-/

namespace Terrain

namespace MapSize

/-- The requested size. An automatic one is that of the map, or a thousand along an axis without
bound. -/
def wanted (size : MapSize) (requested : Extent) : Extent :=
  if requested = automatic then (if size.isInfinite then 1000 else size.value) else requested

def Shows (size : MapSize) (origin : Coordinate) (requested : Extent) (coordinate : Int) : Prop :=
  Between origin (size.wanted requested) coordinate ∧ Between 0 size.value coordinate

instance (size : MapSize) (origin : Coordinate) (requested : Extent) (coordinate : Int) :
    Decidable (size.Shows origin requested coordinate) :=
  inferInstanceAs (Decidable (_ ∧ _))

/-- The window along an axis is the request, or along a bounded axis the part on the map of a request
that begins at zero at the earliest. This is the part on the map of the request itself if and only if
the request begins on or behind the start of the map, or reaches the end of it, or there is no map. -/
structure Clips (size : MapSize) (origin : Coordinate) (requested : Extent) (window : Interval) :
    Prop where
  unbounded : size.isInfinite → window = ⟨origin, size.wanted requested⟩
  bounded : ¬size.isInfinite → ∀ coordinate : Int,
    window.contains coordinate ↔ size.Shows (max origin 0) requested coordinate
  exact : ¬size.isInfinite →
    ((∀ coordinate : Int, window.contains coordinate ↔ size.Shows origin requested coordinate) ↔
      0 ≤ origin ∨ (size.value : Int) ≤ origin + size.wanted requested ∨ size.value = 0)

/-- What is wanted is nothing only if the map is. -/
theorem value_eq_zero_of_wanted {size : MapSize} {requested : Extent} (finite : ¬size.isInfinite)
    (nothing : size.wanted requested = 0) : size.value = 0 := by
  unfold wanted at nothing
  split at nothing
  case isTrue => exact nothing
  case isFalse chosen => exact absurd nothing chosen

theorem windowAxis_eq (size : MapSize) (origin : Coordinate) (requested : Extent) :
    Parameters.windowAxis origin requested size =
      if size.isInfinite then ⟨origin, size.wanted requested⟩
      else ⟨max origin 0, min (size.wanted requested) ((size.value : Int) - max origin 0).toNat⟩ := by
  have same : (if requested ≠ automatic then requested
      else if size.isInfinite then Parameters.windowFallback else size.value) =
        size.wanted requested := by
    rw [ite_not]
    rfl
  unfold Parameters.windowAxis
  rw [same]

theorem bounded_windowAxis {size : MapSize} (finite : ¬size.isInfinite) (origin : Coordinate)
    (requested : Extent) (coordinate : Int) :
    (Parameters.windowAxis origin requested size).contains coordinate ↔
      size.Shows (max origin 0) requested coordinate := by
  rw [Interval.contains_iff, windowAxis_eq, if_neg finite, Interval.Covers, Shows, Between, Between,
    Between]
  dsimp only [Coordinate, Extent]
  omega

theorem clips_windowAxis (size : MapSize) (origin : Coordinate) (requested : Extent) :
    size.Clips origin requested (Parameters.windowAxis origin requested size) where
  unbounded infinite := by rw [windowAxis_eq, if_pos infinite]
  bounded finite := bounded_windowAxis finite origin requested
  exact finite := by
    constructor
    · intro same
      by_contra other
      -- the window then ends at the first of two places, where the clipped request has ended before
      have wanted : size.wanted requested ≠ 0 := fun nothing =>
        other (.inr (.inr (value_eq_zero_of_wanted finite nothing)))
      have last := same (min (size.wanted requested : Int) size.value - 1)
      rw [bounded_windowAxis finite] at last
      simp only [Shows, Between] at last
      dsimp only [Coordinate, Extent] at last other wanted
      omega
    · intro fits coordinate
      rw [bounded_windowAxis finite]
      simp only [Shows, Between]
      dsimp only [Coordinate, Extent] at fits ⊢
      omega

end MapSize

namespace Parameters

/-- Both axes of the render window. -/
theorem window_clipped (parameters : Parameters) :
    parameters.mapWidth.Clips parameters.origin.x parameters.renderWidth
        parameters.window.horizontal ∧
      parameters.mapHeight.Clips parameters.origin.y parameters.renderHeight
        parameters.window.vertical :=
  ⟨MapSize.clips_windowAxis _ _ _, MapSize.clips_windowAxis _ _ _⟩

def ahead : Parameters :=
  { create (MapSize.create 300 10 1000) .infinite with
    origin := ⟨-5, 0⟩, renderWidth := 10, renderHeight := 10 }

/-- It shows ten columns of the map, of which only five were requested. -/
theorem ahead_overshoots :
    ¬ahead.mapWidth.isInfinite ∧ ahead.window = ⟨⟨0, 0⟩, ⟨10, 10⟩⟩ ∧
      ahead.window.horizontal.contains 9 ∧
      ¬ahead.mapWidth.Shows ahead.origin.x ahead.renderWidth 9 ∧
      ∀ coordinate : Int, ahead.mapWidth.Shows ahead.origin.x ahead.renderWidth coordinate ↔
        Between 0 5 coordinate := by
  have width : ahead.mapWidth.wanted ahead.renderWidth = 10 := rfl
  refine ⟨by decide, by decide, by decide, by decide, fun coordinate => ?_⟩
  rw [MapSize.Shows, width, Between, Between, Between]
  have origin : ahead.origin.x = -5 := rfl
  have value : ahead.mapWidth.value = 300 := rfl
  rw [origin, value]
  omega

end Parameters

end Terrain
