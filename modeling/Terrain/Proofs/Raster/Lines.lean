import Terrain.Proofs.Number.Sums
import Terrain.Proofs.Raster.Alignment
import Terrain.Proofs.Raster.Samples
import Terrain.Raster.Map.Drawing

/-!
# Ends of lines

A line is walked from its left end, one sample at a time along its longer axis. There the coordinates are
whole numbers and exact, so the walk ends at the right column or row. Along the shorter axis the slope is
added again and again, and the sum is cut off: if it falls short of the end by the least bit, the sample
before it is set.

* `HeightMap.sampleAt_walk` — a position that is walked over is set.
* `exists_iterate_slope` — the sum of the slopes of a line.
* `HeightMap.drawLine_sets_ends` — what a line sets at its ends.
-/

namespace Terrain

open Number

/-! ## Walking -/

namespace HeightMap

variable {map : HeightMap} {value : Height} {dx dy x y : Float} {i j : Int}
  {running : Float → Float → Bool}

theorem sampleAt_of_indexOf {place : Nat} (found : indexOf map.raster.size ⟨i, j⟩ = .ok place) :
    map.sampleAt i j = .ok (map.samples.getD place 0) := by
  rw [sampleAt, found]
  rfl

theorem sampleAt_setIfInside (full : map.IsFull) (covered : map.bounds.Covers i j) :
    (map.setIfInside i j value).sampleAt i j = .ok value := by
  have found := @indexOf_eq map.raster.size ⟨i, j⟩ covered
  have place : map.raster.size.index i j < map.samples.size :=
    full ▸ Size.index_lt covered.1 covered.2
  rw [setIfInside, found]
  refine (@sampleAt_of_indexOf { map with samples := map.samples.modify _ fun _ => value } i j _
    found).trans ?_
  simp [place, Array.getElem_modify]

/-- A sample that has the value already keeps it. -/
theorem sampleAt_setIfInside_of_eq (before : map.sampleAt i j = .ok value) (i' j' : Int) :
    (map.setIfInside i' j' value).sampleAt i j = .ok value := by
  unfold setIfInside
  split
  case h_2 => exact before
  case h_1 place' _ =>
    cases found : indexOf map.raster.size ⟨i, j⟩ with
    | error breach =>
      rw [sampleAt, found] at before
      cases before
    | ok place =>
      refine (@sampleAt_of_indexOf { map with samples := map.samples.modify _ fun _ => value } i j _
        found).trans ?_
      rw [sampleAt_of_indexOf found, Except.ok.injEq, Array.getD_eq_getD_getElem?] at before
      rw [Except.ok.injEq, Array.getD_eq_getD_getElem?, Array.getElem?_modify]
      split
      case isTrue => cases stored : map.samples[place]? <;> simp_all
      case isFalse => exact before

theorem sampleAt_plot (full : map.IsFull) (column : truncateTo coordinateMin coordinateMax x = i)
    (row : truncateTo coordinateMin coordinateMax y = j) (covered : map.bounds.Covers i j) :
    (map.plot value x y).sampleAt i j = .ok value := by
  rw [plot, column, row]
  exact sampleAt_setIfInside full covered

@[simp]
theorem width_plot : (map.plot value x y).width = map.width := by
  rw [width, width, (sameShape_plot _ _ _).raster]

@[simp]
theorem height_plot : (map.plot value x y).height = map.height := by
  rw [height, height, (sameShape_plot _ _ _).raster]

theorem sampleAt_walk_of_eq (before : map.sampleAt i j = .ok value) (fuel : Nat) (x y : Float) :
    (map.walk fuel value dx dy running x y).sampleAt i j = .ok value := by
  induction fuel generalizing map x y with
  | zero => exact before
  | succ fuel ih =>
    unfold walk
    split
    · exact ih (sampleAt_setIfInside_of_eq before _ _) _ _
    · exact before

/-- A walk that goes on for a number of steps sets the sample it comes to with the next one. -/
theorem sampleAt_walk (full : map.IsFull) {count fuel : Nat} (enough : count < fuel)
    (goes : ∀ k ≤ count, running ((· + dx)^[k] x) ((· + dy)^[k] y))
    (column : truncateTo coordinateMin coordinateMax ((· + dx)^[count + 1] x) = i)
    (row : truncateTo coordinateMin coordinateMax ((· + dy)^[count + 1] y) = j)
    (covered : map.bounds.Covers i j) :
    (map.walk fuel value dx dy running x y).sampleAt i j = .ok value := by
  obtain ⟨fuel, rfl⟩ := Nat.exists_eq_add_one.2 (Nat.zero_lt_of_lt enough)
  induction count generalizing map x y fuel with
  | zero =>
    have now : running x y := goes 0 le_rfl
    rw [walk, if_pos now]
    exact sampleAt_walk_of_eq (sampleAt_plot full column row covered) _ _ _
  | succ count ih =>
    obtain ⟨fuel, rfl⟩ := Nat.exists_eq_add_one.2 (show 0 < fuel by omega)
    have plotted := @sameShape_plot map value (x + dx) (y + dy)
    have now : running x y := goes 0 (Nat.zero_le _)
    rw [walk, if_pos now]
    refine ih (plotted.full full) (fun k le => goes (k + 1) (by omega)) column row ?_ fuel (by omega)
    rwa [bounds, plotted.raster]

end HeightMap

/-! ## Coordinates inside a map -/

/-- A whole number inside a side that coordinates can span. -/
structure IsOffset (side : Nat) (k : Int) : Prop where
  between : Between 0 side k
  narrow : side ≤ 2147483647

namespace IsOffset

variable {side : Nat} {k k' : Int} {z : Float} {r : ℚ}

theorem small (offset : IsOffset side k) : Number.Small k := by
  obtain ⟨⟨low, high⟩, narrow⟩ := offset
  unfold Number.Small
  omega

theorem isValue (offset : IsOffset side k) : IsValue (Float.ofInt k) k := isValue_ofInt offset.small.le

theorem clamped (offset : IsOffset side k) : clampInt coordinateMin coordinateMax k = k := by
  obtain ⟨⟨low, high⟩, narrow⟩ := offset
  exact clampInt_of_mem (le_trans (by decide) low) (by dsimp only [coordinateMax]; omega)

theorem truncateTo_of_truncated (offset : IsOffset side k) (isValue : IsValue z r)
    (cut : truncated r = k) : truncateTo coordinateMin coordinateMax z = k := by
  rw [isValue.truncateTo, cut, offset.clamped]

theorem truncateTo (offset : IsOffset side k) (isValue : IsValue z k) :
    Number.truncateTo coordinateMin coordinateMax z = k :=
  offset.truncateTo_of_truncated isValue (truncated_intCast k)

/-- A coordinate inside a map is outside on neither side. -/
theorem not_outside (offset : IsOffset side k) (isValue : IsValue z k) :
    ¬z < Float.ofInt 0 ∧ ¬Float.ofInt (narrowCoordinate side) ≤ z := by
  obtain ⟨⟨low, high⟩, narrow⟩ := offset
  rw [narrowCoordinate_eq (isCoordinate_iff.2 (by omega)), isValue.lt_iff (isValue_ofInt (by decide)),
    (isValue_ofInt (by omega)).le_iff isValue]
  exact ⟨by exact_mod_cast not_lt.2 low, by exact_mod_cast not_le.2 (by omega)⟩

theorem natAbs_sub_le (offset : IsOffset side k) (offset' : IsOffset side k') :
    (k' - k).natAbs ≤ side := by
  obtain ⟨⟨low, high⟩, -⟩ := offset
  obtain ⟨⟨low', high'⟩, -⟩ := offset'
  omega

theorem small_sub (offset : IsOffset side k) (offset' : IsOffset side k') : Number.Small (k' - k) :=
  (offset.natAbs_sub_le offset').trans_lt (offset.narrow.trans_lt (by decide))

theorem isValue_sub (offset : IsOffset side k) (offset' : IsOffset side k') :
    IsValue (Float.ofInt k' - Float.ofInt k) (k' - k : Int) :=
  offset'.isValue.sub offset.isValue offset'.small offset.small (offset.small_sub offset')

end IsOffset

/-! ## Slopes -/

/-- A quotient is a fraction of a power of two. -/
def Dyadic (divisor dividend : Int) : Prop := ∃ k : ℕ, divisor ∣ 2 ^ k * dividend

theorem Dyadic.exists_eq {divisor dividend : Int} (dyadic : Dyadic divisor dividend)
    (nonzero : divisor ≠ 0) :
    ∃ (k : ℕ) (step : Int), 2 ^ k ≤ divisor.natAbs ∧ dividend * 2 ^ k = step * divisor.natAbs := by
  obtain ⟨k, divides⟩ := dyadic
  have common : 0 < divisor.gcd dividend := Int.gcd_pos_of_ne_zero_left _ nonzero
  obtain ⟨base, step, coprime, divisorEq, dividendEq⟩ := Int.exists_gcd_one common
  have common' : (divisor.gcd dividend : Int) ≠ 0 := by exact_mod_cast common.ne'
  -- in lowest terms, the divisor divides the power of two
  have lowest : base ∣ 2 ^ k := by
    refine (Int.isCoprime_iff_gcd_eq_one.2 coprime).dvd_of_dvd_mul_right ?_
    refine Int.dvd_of_mul_dvd_mul_right common' ?_
    rwa [mul_assoc, ← dividendEq, ← divisorEq]
  have lowest' : base.natAbs ∣ 2 ^ k := by simpa [Int.natAbs_pow] using Int.natAbs_dvd_natAbs.2 lowest
  obtain ⟨j, -, power⟩ := (Nat.dvd_prime_pow Nat.prime_two).1 lowest'
  have size : divisor.natAbs = 2 ^ j * divisor.gcd dividend := by
    conv_lhs => rw [divisorEq]
    rw [Int.natAbs_mul, power, Int.natAbs_natCast]
  refine ⟨j, step, ?_, ?_⟩
  · rw [size]
    exact Nat.le_mul_of_pos_right _ common
  · rw [size]
    conv_lhs => rw [dividendEq]
    push_cast
    ring

/-- A coordinate of the sample that a line sets last, on its shorter axis: the end of the line, or the one
before it in the map if the slope is not exact. -/
def EndsAt (longer shorter low last n : Int) : Prop :=
  n = last ∨ ¬Dyadic longer shorter ∧ low < last ∧ n = last - 1

theorem EndsAt.neg {longer shorter low last n : Int} (ends : EndsAt longer shorter low last n) :
    EndsAt (-longer) shorter low last n := by
  simpa only [EndsAt, Dyadic, neg_dvd] using ends

/-- A sum of slopes that would come to a whole number, next to that number. -/
theorem truncated_eq_or_pred {r : ℚ} {last : Int} (nonneg : 0 ≤ last) (near : |r - last| < 1) :
    truncated r = last ∨ 0 < last ∧ truncated r = last - 1 := by
  obtain ⟨above, below⟩ := abs_lt.1 near
  unfold truncated
  split
  case isTrue negative =>
    have zero : last = 0 := by
      have less : ((last : Int) : ℚ) < 1 := by linarith
      have less' : last < 1 := by exact_mod_cast less
      omega
    rw [zero, Int.cast_zero] at above
    exact .inl (zero ▸ Int.ceil_eq_iff.2 ⟨by push_cast; linarith, by push_cast; exact negative.le⟩)
  case isFalse other =>
    have lower : last - 1 ≤ ⌊r⌋ := Int.le_floor.2 (by push_cast; linarith)
    have upper : ⌊r⌋ < last + 1 := Int.floor_lt.2 (by push_cast; linarith)
    have least : 0 ≤ ⌊r⌋ := Int.floor_nonneg.2 (not_lt.1 other)
    omega

section Slopes

variable {x slope : Float} {first last : Int} {side count : Nat}

/-- On the way from one number to another, what has been added so far stays between bounds of both. -/
theorem add_mul_mem {R : Type} [CommRing R] [LinearOrder R] [IsStrictOrderedRing R]
    {start step low high : R} {i count : Nat} (le : i ≤ count) (first : low ≤ start ∧ start ≤ high)
    (last : low ≤ start + count * step ∧ start + count * step ≤ high) :
    low ≤ start + i * step ∧ start + i * step ≤ high := by
  have part : (i : R) ≤ count := Nat.cast_le.2 le
  have nonneg : (0 : R) ≤ i := Nat.cast_nonneg i
  rcases le_total 0 step with up | down
  · constructor <;> nlinarith
  · constructor <;> nlinarith

/-- A slope that is a fraction of a power of two adds up without error. -/
theorem iterate_slope_eq (positive : 0 < count) (few : count * side ≤ 2 ^ 50)
    (isValue : IsValue x first) (inside : Between 0 side first) (inside' : Between 0 side last)
    (rounds : Rounds slope (-52) ((last - first : Int) / (count : ℚ)))
    (dyadic : Dyadic count (last - first)) : IsValue ((· + slope)^[count] x) last := by
  obtain ⟨k, step, power, exact⟩ := dyadic.exists_eq (by exact_mod_cast positive.ne')
  rw [Int.natAbs_natCast] at power exact
  unfold Between at inside inside'
  have high : k ≤ 50 := by
    have bound : 2 ^ k ≤ 2 ^ 50 := power.trans ((Nat.le_mul_of_pos_right _ (by omega)).trans few)
    exact (Nat.pow_le_pow_iff_right (by decide)).1 bound
  have grid : (2 : ℚ) ^ k * 2 ^ (-(k : Int)) = 1 := by
    rw [← zpow_natCast, ← zpow_add₀ (by norm_num), add_neg_cancel, zpow_zero]
  have above : (0 : ℚ) < count := by exact_mod_cast positive
  have exact' : ((last - first : Int) : ℚ) * 2 ^ k = step * count := by exact_mod_cast exact
  have quotient : ((last - first : Int) : ℚ) / count = step * 2 ^ (-(k : Int)) := by
    rw [div_eq_iff above.ne', mul_right_comm, ← exact', mul_assoc, grid, mul_one]
  have isStep : IsValue slope (step * 2 ^ (-(k : Int))) := by
    obtain ⟨rounded, isRounded, faithful⟩ := rounds
    rw [quotient] at faithful
    rwa [← (faithful.mono (show -52 ≤ -(k : Int) by omega)).eq_of_eq_mul rfl]
  have isFirst : IsValue x ((first * 2 ^ k : Int) * 2 ^ (-(k : Int))) := by
    push_cast
    rwa [mul_assoc, grid, mul_one]
  have total : first * 2 ^ k + count * step = last * 2 ^ k := by
    rw [mul_comm (count : Int), ← exact]
    ring
  have bounded (i : Nat) (le : i ≤ count) : |first * 2 ^ k + i * step| ≤ 2 ^ 52 := by
    have power' : (0 : Int) ≤ 2 ^ k := by positivity
    have room : (side : Int) * 2 ^ k ≤ 2 ^ 50 := by
      exact_mod_cast (Nat.mul_le_mul_left side power).trans (mul_comm count side ▸ few)
    have mem {n : Int} (inside : 0 ≤ n ∧ n < 0 + side) : 0 ≤ n * 2 ^ k ∧ n * 2 ^ k ≤ 2 ^ 50 :=
      ⟨mul_nonneg inside.1 power', (mul_le_mul_of_nonneg_right (by omega) power').trans room⟩
    have between := add_mul_mem le (mem inside) (total ▸ mem inside')
    rw [abs_of_nonneg between.1]
    omega
  have sum := isFirst.iterate_add_eq isStep (by omega) (by omega) count bounded
  have same : ((first * 2 ^ k + count * step : Int) : ℚ) * 2 ^ (-(k : Int)) = last := by
    rw [total]
    push_cast
    rw [mul_assoc, grid, mul_one]
  rwa [same] at sum

/-- The longer a line is, the finer is the unit in which its sums are rounded. -/
theorem exists_unit (positive : 0 < count) (wide : 0 < side) (few : count * side ≤ 2 ^ 50) :
    ∃ bits : ℕ, bits ≤ 51 ∧ side ≤ 2 ^ bits ∧
      (count : ℚ) * (2 ^ ((bits : Int) - 52) + 2 ^ (-52 : Int)) < 1 := by
  have low : side ≤ 2 ^ (Nat.log 2 side + 1) := (Nat.lt_pow_succ_log_self (by decide) side).le
  have high : 2 ^ (Nat.log 2 side + 1) ≤ 2 * side := by
    rw [Nat.pow_succ']
    exact Nat.mul_le_mul_left 2 (Nat.pow_log_le_self 2 wide.ne')
  generalize Nat.log 2 side + 1 = bits at low high
  refine ⟨bits, ?_, low, ?_⟩
  · have most : side ≤ 2 ^ 50 := (Nat.le_mul_of_pos_left side positive).trans few
    exact (Nat.pow_le_pow_iff_right (show 1 < 2 by decide)).1 (high.trans (Nat.mul_le_mul_left 2 most))
  · have unit : (2 : ℚ) ^ ((bits : Int) - 52) = 2 ^ bits * 2 ^ (-52 : Int) := by
      rw [← zpow_natCast, ← zpow_add₀ (by norm_num)]
      rfl
    have above : (0 : ℚ) < count := by exact_mod_cast positive
    have few' : (count : ℚ) * side ≤ 2 ^ 50 := by exact_mod_cast few
    have wide' : (1 : ℚ) ≤ side := by exact_mod_cast wide
    have high' : (2 : ℚ) ^ bits ≤ 2 * side := by exact_mod_cast high
    rw [unit]
    norm_num
    nlinarith

/-- A slope that is not level is not tiny. -/
theorem reaches_slope (positive : 0 < count) (long : count ≤ 2 ^ 50) (slanted : first ≠ last)
    {rounded : ℚ} (faithful : Faithful (-52) ((last - first : Int) / (count : ℚ)) rounded) :
    (2 : ℚ) ^ (-50 : Int) ≤ |rounded| := by
  have least := @zpow_neg_le_abs_div (last - first) count (by omega) (by omega) 50 long
  have units : (2 : ℚ) ^ (-(50 : ℕ) : Int) = (4 : ℕ) * 2 ^ (-52 : Int) := by norm_num
  rw [Int.cast_natCast, units] at least
  exact units.le.trans (faithful.reaches least)

/-- Other slopes add up to less than one sample beside the end. -/
theorem exists_iterate_slope (positive : 0 < count) (few : count * side ≤ 2 ^ 50)
    (isValue : IsValue x first) (inside : Between 0 side first) (inside' : Between 0 side last)
    (rounds : Rounds slope (-52) ((last - first : Int) / (count : ℚ))) (slanted : first ≠ last) :
    ∃ r, IsValue ((· + slope)^[count] x) r ∧ |r - last| < 1 := by
  obtain ⟨rounded, isSlope, faithful⟩ := rounds
  unfold Between at inside inside'
  have wide : 0 < side := by omega
  have reached := reaches_slope positive ((Nat.le_mul_of_pos_right count wide).trans few) slanted
    faithful
  obtain ⟨bits, short, low, total⟩ := exists_unit positive wide few
  have slope : (count : ℚ) * (((last - first : Int) : ℚ) / count) = last - first := by
    rw [mul_div_cancel₀ _ (Nat.cast_ne_zero.2 positive.ne')]
    push_cast
    rfl
  have bounded (i : Nat) (le : i ≤ count) :
      |(first : ℚ) + i * (((last - first : Int) : ℚ) / count)| +
        count * (2 ^ ((bits : Int) - 52) + 2 ^ (-52 : Int)) ≤ 2 ^ ((bits : Int) - 52 + 52) := by
    have mem {n : Int} (inside : 0 ≤ n ∧ n < 0 + side) : (0 : ℚ) ≤ n ∧ (n : ℚ) ≤ side - 1 := by
      have most : n + 1 ≤ side := by omega
      have most' : (n : ℚ) + 1 ≤ side := by exact_mod_cast most
      exact ⟨by exact_mod_cast inside.1, by linarith⟩
    have stop : (first : ℚ) + count * (((last - first : Int) : ℚ) / count) = last := by
      rw [slope]
      ring
    have between := add_mul_mem le (mem inside) (stop.symm ▸ mem inside')
    have low' : (side : ℚ) ≤ 2 ^ bits := by exact_mod_cast low
    rw [abs_of_nonneg between.1, sub_add_cancel, zpow_natCast]
    calc _ ≤ (side - 1 : ℚ) + 1 := add_le_add between.2 total.le
      _ = side := sub_add_cancel _ _
      _ ≤ 2 ^ bits := low'
  obtain ⟨r, isSum, near⟩ := isValue.iterate_add_near isSlope reached (by decide) (by omega)
    faithful.abs_sub_lt.le count bounded
  rw [slope, add_sub_cancel] at near
  exact ⟨r, isSum, near.trans_lt total⟩

/-- The end of a line and the sample before it are in the map. -/
theorem EndsAt.offset {longer shorter k n : Int} (ends : EndsAt longer shorter 0 k n)
    (offset : IsOffset side k) : IsOffset side n := by
  obtain ⟨⟨low, high⟩, narrow⟩ := offset
  rcases ends with rfl | ⟨-, above, rfl⟩
  · exact ⟨⟨low, high⟩, narrow⟩
  · exact ⟨⟨by omega, by omega⟩, narrow⟩

/-- Where a line comes to along its shorter axis: at its end, or one sample before it. -/
theorem exists_truncateTo_slope (positive : 0 < count) (few : count * side ≤ 2 ^ 50)
    (offset : IsOffset side first) (offset' : IsOffset side last)
    (rounds : Rounds slope (-52) ((last - first : Int) / (count : ℚ))) :
    ∃ n, truncateTo coordinateMin coordinateMax ((· + slope)^[count] (Float.ofInt first)) = n ∧
      EndsAt count (last - first) 0 last n := by
  by_cases dyadic : Dyadic count (last - first)
  · have sum := iterate_slope_eq positive few offset.isValue offset.between offset'.between rounds dyadic
    exact ⟨last, offset'.truncateTo sum, .inl rfl⟩
  · have slanted : first ≠ last := by
      rintro rfl
      exact dyadic ⟨0, by simp⟩
    obtain ⟨r, sum, near⟩ := exists_iterate_slope positive few offset.isValue offset.between
      offset'.between rounds slanted
    have ends : EndsAt count (last - first) 0 last (truncated r) :=
      (truncated_eq_or_pred offset'.between.1 near).imp_right fun before => ⟨dyadic, before⟩
    exact ⟨_, (ends.offset offset').truncateTo_of_truncated sum rfl, ends⟩

/-- Along its longer axis a line is walked over the coordinates one by one. -/
theorem iterate_unit {step : Int} (offset : IsOffset side first) (isStep : IsValue slope step)
    (unit : step = 1 ∨ step = -1) (le : count ≤ side) :
    IsValue ((· + slope)^[count] (Float.ofInt first)) (first + count * step : Int) := by
  have bounded (i : Nat) (before : i ≤ count) : |first + i * step| ≤ 2 ^ 52 := by
    obtain ⟨⟨low, high⟩, narrow⟩ := offset
    rw [Int.abs_eq_natAbs]
    rcases unit with rfl | rfl <;> omega
  have whole (n : Int) : (n : ℚ) * 2 ^ (0 : Int) = n := by rw [zpow_zero, mul_one]
  have isFirst := offset.isValue
  rw [← whole] at isFirst isStep
  have sum := isFirst.iterate_add_eq isStep (by decide) (by decide) count bounded
  rwa [whole] at sum

end Slopes

/-! ## Clipping -/

theorem magnitude_le_iff {x y : Float} {n m : Int} (isValue : IsValue x n) (isValue' : IsValue y m) :
    Number.magnitude x ≤ Number.magnitude y ↔ n.natAbs ≤ m.natAbs := by
  rw [(isValue.magnitude (isNormal_intCast n)).le_iff (isValue'.magnitude (isNormal_intCast m)),
    ← Int.cast_abs, ← Int.cast_abs, Int.abs_eq_natAbs, Int.abs_eq_natAbs]
  norm_cast

theorem Outcode.isInside_of {size : Size} {i j : Int} (column : IsOffset size.width i)
    (row : IsOffset size.height j) :
    (Outcode.of ⟨.origin, size⟩ (Float.ofInt i) (Float.ofInt j)).isInside := by
  obtain ⟨left, right⟩ := column.not_outside column.isValue
  obtain ⟨top, bottom⟩ := row.not_outside row.isValue
  simp [Outcode.of, isInside, Rectangle.endingPoint, Rectangle.horizontal, Rectangle.vertical,
    Interval.stop, Point.origin, left, right, top, bottom]

/-- Nothing of a segment between two samples is outside. -/
theorem Segment.clip?_eq_self {size : Size} {first last : Point} (firstX : IsOffset size.width first.x)
    (firstY : IsOffset size.height first.y) (lastX : IsOffset size.width last.x)
    (lastY : IsOffset size.height last.y) :
    clip? ⟨Float.ofInt first.x, Float.ofInt first.y, Float.ofInt last.x, Float.ofInt last.y⟩
        ⟨.origin, size⟩ =
      some ⟨Float.ofInt first.x, Float.ofInt first.y, Float.ofInt last.x, Float.ofInt last.y⟩ := by
  have nonempty : (⟨.origin, size⟩ : Rectangle).isEmpty = false := by
    rw [Bool.eq_false_iff]
    exact fun empty => Rectangle.isEmpty_iff.1 empty _ _ ⟨firstX.between, firstY.between⟩
  rw [clip?, nonempty, if_neg Bool.false_ne_true, clipLoop]
  simp only [Outcode.isInside_of firstX firstY, Outcode.isInside_of lastX lastY, Bool.and_self, if_true]

/-! ## Lines inside a map -/

namespace HeightMap

variable {map : HeightMap} {value : Height} {first last : Point}

/-- What is drawn from a sample to another one on its right. -/
def trace (map : HeightMap) (value : Height) (first last : Point) : HeightMap :=
  let x := Float.ofInt first.x
  let y := Float.ofInt first.y
  let endX := Float.ofInt last.x
  let endY := Float.ofInt last.y
  let steps := max map.width map.height + 1
  let map := map.plot value x y
  if (last.y - first.y).natAbs ≤ (last.x - first.x).natAbs then
    map.walk steps value 1.0 (if last.x = first.x then 0.0 else (endY - y) / (endX - x))
      (fun x _ => x < endX) x y
  else if first.y < last.y then
    map.walk steps value ((endX - x) / (endY - y)) 1.0 (fun _ y => y < endY) x y
  else map.walk steps value (-((endX - x) / (endY - y))) (-1.0) (fun _ y => y > endY) x y

/-- A map in which a line can be drawn from a sample to another one. -/
structure Spans (map : HeightMap) (first last : Point) : Prop where
  full : map.IsFull
  few : map.raster.size.area ≤ 2 ^ 50
  firstX : IsOffset map.raster.size.width first.x
  firstY : IsOffset map.raster.size.height first.y
  lastX : IsOffset map.raster.size.width last.x
  lastY : IsOffset map.raster.size.height last.y

namespace Spans

variable (spans : map.Spans first last)

include spans

/-- Drawing does not change the shape of the map. -/
theorem plotted (value : Height) (x y : Float) : (map.plot value x y).Spans first last := by
  have plotted := @sameShape_plot map value x y
  have same := plotted.raster
  exact ⟨plotted.full spans.full, same ▸ spans.few, same ▸ spans.firstX, same ▸ spans.firstY,
    same ▸ spans.lastX, same ▸ spans.lastY⟩

/-- Nothing of a line inside the map is clipped away. -/
theorem drawLine_eq_trace {start stop : Point} (ordered : start.x ≤ stop.x)
    (isFirst : map.localPoint start = first) (isLast : map.localPoint stop = last) :
    map.drawLine start stop value = map.trace value first last := by
  have clipped := Segment.clip?_eq_self spans.firstX spans.firstY spans.lastX spans.lastY
  have isRun := spans.firstX.isValue_sub spans.lastX
  have isRise := spans.firstY.isValue_sub spans.lastY
  have longer := magnitude_le_iff isRise isRun
  have level : (Float.ofInt last.x - Float.ofInt first.x == 0.0) = decide (last.x = first.x) := by
    rw [isRun.beq_eq isValue_zero, decide_eq_decide]
    exact_mod_cast sub_eq_zero
  have rising : Float.ofInt first.y < Float.ofInt last.y ↔ first.y < last.y := by
    rw [spans.firstY.isValue.lt_iff spans.lastY.isValue]
    norm_cast
  simp only [drawLine, if_pos ordered, isFirst, isLast, bounds, clipped, ge_iff_le, longer, level,
    rising, trace, decide_eq_true_eq]

theorem sampleAt_trace_first : (map.trace value first last).sampleAt first.x first.y = .ok value := by
  have plotted := @sampleAt_plot map value _ _ _ _ spans.full
    (spans.firstX.truncateTo spans.firstX.isValue) (spans.firstY.truncateTo spans.firstY.isValue)
    ⟨spans.firstX.between, spans.firstY.between⟩
  unfold trace
  dsimp only
  split
  · exact sampleAt_walk_of_eq plotted _ _ _
  · split <;> exact sampleAt_walk_of_eq plotted _ _ _

theorem exists_sampleAt_walk_columns {slope : Float} {count : Nat}
    (columns : last.x - first.x = (count + 1 : Nat))
    (rounds : Rounds slope (-52) ((last.y - first.y : Int) / ((count + 1 : Nat) : ℚ))) :
    ∃ y, EndsAt (count + 1 : Nat) (last.y - first.y) 0 last.y y ∧
      (map.walk (max map.width map.height + 1) value 1.0 slope (fun x _ => x < Float.ofInt last.x)
        (Float.ofInt first.x) (Float.ofInt first.y)).sampleAt last.x y = .ok value := by
  have long : count + 1 ≤ map.raster.size.width := by
    have most := spans.firstX.natAbs_sub_le spans.lastX
    rwa [columns] at most
  have isOne : IsValue 1.0 (1 : Int) := isValue_of_isWholeFloat ⟨by norm_num [Number.Small], rfl⟩
  have isColumn (k : Nat) (le : k ≤ count + 1) :=
    iterate_unit spans.firstX isOne (.inl rfl) (le.trans long)
  have stop : first.x + (count + 1 : Nat) * 1 = last.x := by
    rw [mul_one, ← columns]
    exact add_sub_cancel _ _
  obtain ⟨y, row, ends⟩ := exists_truncateTo_slope (Nat.succ_pos count)
    ((Nat.mul_le_mul_right _ long).trans spans.few) spans.firstY spans.lastY rounds
  refine ⟨y, ends, sampleAt_walk spans.full ?_ (fun k le => ?_) ?_ row
    ⟨spans.lastX.between, (ends.offset spans.lastY).between⟩⟩
  · exact Nat.lt_succ_of_le (le_trans (Nat.le_of_succ_le long) (le_max_left _ _))
  · rw [decide_eq_true_iff, (isColumn k (Nat.le_succ_of_le le)).lt_iff spans.lastX.isValue, ← stop]
    refine Int.cast_lt.2 ?_
    dsimp only [Coordinate]
    omega
  · exact spans.lastX.truncateTo (stop ▸ isColumn (count + 1) le_rfl)

theorem exists_sampleAt_walk_rows {slope dy : Float} {step : Int} {count : Nat}
    {running : Float → Float → Bool} (isStep : IsValue dy step) (unit : step = 1 ∨ step = -1)
    (rows : last.y - first.y = (count + 1 : Nat) * step)
    (rounds : Rounds slope (-52) ((last.x - first.x : Int) / ((count + 1 : Nat) : ℚ)))
    (goes : ∀ k ≤ count, ∀ x y, IsValue y (first.y + k * step : Int) → running x y) :
    ∃ x, EndsAt (count + 1 : Nat) (last.x - first.x) 0 last.x x ∧
      (map.walk (max map.width map.height + 1) value slope dy running (Float.ofInt first.x)
        (Float.ofInt first.y)).sampleAt x last.y = .ok value := by
  have long : count + 1 ≤ map.raster.size.height := by
    have most := spans.firstY.natAbs_sub_le spans.lastY
    rw [rows, Int.natAbs_mul, Int.natAbs_natCast] at most
    rcases unit with rfl | rfl <;> exact (Nat.mul_one _).symm.trans_le most
  have isRow (k : Nat) (le : k ≤ count + 1) := iterate_unit spans.firstY isStep unit (le.trans long)
  have stop : first.y + (count + 1 : Nat) * step = last.y := by
    rw [← rows]
    exact add_sub_cancel _ _
  obtain ⟨x, column, ends⟩ := exists_truncateTo_slope (Nat.succ_pos count)
    ((Nat.mul_comm _ _ ▸ Nat.mul_le_mul_left _ long).trans spans.few) spans.firstX spans.lastX rounds
  refine ⟨x, ends, sampleAt_walk spans.full ?_ (fun k le => ?_) column ?_
    ⟨(ends.offset spans.lastX).between, spans.lastY.between⟩⟩
  · exact Nat.lt_succ_of_le (le_trans (Nat.le_of_succ_le long) (le_max_right _ _))
  · exact goes k le _ _ (isRow k (Nat.le_succ_of_le le))
  · exact spans.lastY.truncateTo (stop ▸ isRow (count + 1) le_rfl)

/-- The end of a line that is at least as wide as high. -/
theorem exists_sampleAt_trace_flat (ordered : first.x ≤ last.x)
    (flat : (last.y - first.y).natAbs ≤ (last.x - first.x).natAbs) :
    ∃ y, EndsAt (last.x - first.x) (last.y - first.y) 0 last.y y ∧
      (map.trace value first last).sampleAt last.x y = .ok value := by
  rcases eq_or_ne last.x first.x with level | slanted
  · have same : last.y = first.y := by
      dsimp only [Coordinate] at *
      omega
    refine ⟨last.y, .inl rfl, ?_⟩
    rw [level, same]
    exact spans.sampleAt_trace_first
  · obtain ⟨count, columns⟩ := Int.lt.dest (lt_of_le_of_ne ordered slanted.symm)
    have run : last.x - first.x = (count + 1 : Nat) := by
      rw [← columns]
      exact add_sub_cancel_left _ _
    have rounds := rounds_div (spans.firstY.isValue_sub spans.lastY)
      (spans.firstX.isValue_sub spans.lastX) (sub_ne_zero.2 slanted)
      (spans.firstX.small_sub spans.lastX) flat
    rw [run, Int.cast_natCast] at rounds
    have plotted := spans.plotted value (Float.ofInt first.x) (Float.ofInt first.y)
    obtain ⟨y, ends, drawn⟩ := @exists_sampleAt_walk_columns _ value _ _ plotted _ _ run rounds
    refine ⟨y, by rwa [run], ?_⟩
    rw [width_plot, height_plot] at drawn
    rwa [trace, if_pos flat, if_neg slanted]

/-- The end of a line that is higher than wide, towards higher rows. -/
theorem exists_sampleAt_trace_rising (steep : (last.x - first.x).natAbs < (last.y - first.y).natAbs)
    (rising : first.y < last.y) :
    ∃ x, EndsAt (last.y - first.y) (last.x - first.x) 0 last.x x ∧
      (map.trace value first last).sampleAt x last.y = .ok value := by
  obtain ⟨count, rows⟩ := Int.lt.dest rising
  have rise : last.y - first.y = (count + 1 : Nat) := by
    rw [← rows]
    exact add_sub_cancel_left _ _
  have rounds := rounds_div (spans.firstX.isValue_sub spans.lastX) (spans.firstY.isValue_sub spans.lastY)
    (sub_ne_zero.2 rising.ne') (spans.firstY.small_sub spans.lastY) steep.le
  rw [rise, Int.cast_natCast] at rounds
  have isOne : IsValue 1.0 (1 : Int) := isValue_of_isWholeFloat ⟨by norm_num [Number.Small], rfl⟩
  have goes (k : Nat) (le : k ≤ count) (x y : Float) (isRow : IsValue y (first.y + k * 1 : Int)) :
      decide (y < Float.ofInt last.y) = true := by
    rw [decide_eq_true_iff, isRow.lt_iff spans.lastY.isValue, Int.cast_lt]
    dsimp only [Coordinate] at rows ⊢
    omega
  have plotted := spans.plotted value (Float.ofInt first.x) (Float.ofInt first.y)
  obtain ⟨x, ends, drawn⟩ := @exists_sampleAt_walk_rows _ value _ _ plotted _ _ _ _ _ isOne (.inl rfl)
    (by rwa [mul_one]) rounds goes
  refine ⟨x, by rwa [rise], ?_⟩
  rw [width_plot, height_plot] at drawn
  rwa [trace, if_neg (not_le.2 steep), if_pos rising]

/-- The end of a line that is higher than wide, towards lower rows. -/
theorem exists_sampleAt_trace_falling (steep : (last.x - first.x).natAbs < (last.y - first.y).natAbs)
    (falling : last.y < first.y) :
    ∃ x, EndsAt (last.y - first.y) (last.x - first.x) 0 last.x x ∧
      (map.trace value first last).sampleAt x last.y = .ok value := by
  obtain ⟨count, rows⟩ := Int.lt.dest falling
  have rise : last.y - first.y = -(count + 1 : Nat) := by
    rw [← rows]
    exact sub_add_cancel_left _ _
  have rounds := rounds_neg_div (spans.firstX.isValue_sub spans.lastX)
    (spans.firstY.isValue_sub spans.lastY) (sub_ne_zero.2 falling.ne)
    ((spans.firstY.natAbs_sub_le spans.lastY).trans (spans.firstY.narrow.trans (by decide))) steep.le
  rw [rise, neg_neg, Int.cast_natCast] at rounds
  have isMinusOne : IsValue (-1.0) (-1 : Int) :=
    isValue_of_isWholeFloat (IsWholeFloat.neg ⟨by norm_num [Number.Small], rfl⟩ one_ne_zero)
  have goes (k : Nat) (le : k ≤ count) (x y : Float) (isRow : IsValue y (first.y + k * (-1) : Int)) :
      decide (y > Float.ofInt last.y) = true := by
    rw [decide_eq_true_iff, gt_iff_lt, spans.lastY.isValue.lt_iff isRow, Int.cast_lt]
    dsimp only [Coordinate] at rows ⊢
    omega
  have plotted := spans.plotted value (Float.ofInt first.x) (Float.ofInt first.y)
  obtain ⟨x, ends, drawn⟩ := @exists_sampleAt_walk_rows _ value _ _ plotted _ _ _ _ _ isMinusOne
    (.inr rfl) (by rwa [mul_neg_one]) rounds goes
  refine ⟨x, rise ▸ ends.neg, ?_⟩
  rw [width_plot, height_plot] at drawn
  rwa [trace, if_neg (not_le.2 steep), if_neg falling.not_gt]

end Spans

/-! ## Lines in the plane -/

def fromLeft (a b : Point) : Point × Point := if a.x ≤ b.x then (a, b) else (b, a)

theorem drawLine_fromLeft (start stop : Point) :
    map.drawLine (fromLeft start stop).1 (fromLeft start stop).2 value =
      map.drawLine start stop value := by
  unfold fromLeft
  split
  case isTrue => rfl
  case isFalse right =>
    dsimp only [Coordinate] at right
    simp only [drawLine, if_neg right, if_pos (show stop.x ≤ start.x by dsimp only [Coordinate]; omega)]

/-- A map at scale one whose coordinates do not saturate, of at most 2^50 samples. -/
structure IsDrawable (map : HeightMap) : Prop where
  full : map.IsFull
  unscaled : map.IsUnscaled
  width : map.raster.size.width ≤ 2147483647
  height : map.raster.size.height ≤ 2147483647
  few : map.raster.size.area ≤ 2 ^ 50

/-- A point of a map in local coordinates. -/
theorem IsDrawable.localPoint (drawable : map.IsDrawable) {point : Point} (inX : IsCoordinate point.x)
    (inY : IsCoordinate point.y) (covered : map.raster.Covers point.x point.y) :
    map.localPoint point = ⟨point.x - map.raster.position.x, point.y - map.raster.position.y⟩ := by
  rw [HeightMap.localPoint, drawable.unscaled.scale, Point.scaled, Point.scaleCoordinate_one inX,
    Point.scaleCoordinate_one inY]
  exact congrArg₂ Point.mk (IsOffset.clamped ⟨covered.between.1, drawable.width⟩)
    (IsOffset.clamped ⟨covered.between.2, drawable.height⟩)

theorem heightAt_of_sampleAt {x y : Int} (drawn : map.sampleAt i j = .ok value)
    (column : x - map.raster.position.x = i) (row : y - map.raster.position.y = j) :
    map.heightAt x y = value := by
  rw [heightAt, column, row]
  rw [sampleAt, indexOf] at drawn
  split at drawn
  case isTrue => exact Except.ok.inj drawn
  case isFalse => cases drawn

theorem EndsAt.translated {longer shorter low last n offset : Int}
    (ends : EndsAt longer shorter low last n) :
    EndsAt longer shorter (low + offset) (last + offset) (n + offset) := by
  rcases ends with rfl | ⟨inexact, above, rfl⟩
  · exact .inl rfl
  · exact .inr ⟨inexact, by omega, by omega⟩

/-- What a line from a point to another one on its right sets at its ends: the sample at the left end, and
in the last column, or in the last row if it is steep, the sample at the other end or one before it. -/
structure SetsEnds (map : HeightMap) (value : Height) (a b : Point) : Prop where
  left : map.heightAt a.x a.y = value
  flat : (b.y - a.y).natAbs ≤ (b.x - a.x).natAbs → ∃ y,
    EndsAt (b.x - a.x) (b.y - a.y) map.raster.position.y b.y y ∧ map.heightAt b.x y = value
  steep : (b.x - a.x).natAbs < (b.y - a.y).natAbs → ∃ x,
    EndsAt (b.y - a.y) (b.x - a.x) map.raster.position.x b.x x ∧ map.heightAt x b.y = value

theorem setsEnds_of_le (drawable : map.IsDrawable) {a b : Point}
    (inRange : IsCoordinate a.x ∧ IsCoordinate a.y) (inRange' : IsCoordinate b.x ∧ IsCoordinate b.y)
    (covered : map.raster.Covers a.x a.y) (covered' : map.raster.Covers b.x b.y)
    (ordered : a.x ≤ b.x) : (map.drawLine a b value).SetsEnds value a b := by
  have isFirst := drawable.localPoint inRange.1 inRange.2 covered
  have isLast := drawable.localPoint inRange'.1 inRange'.2 covered'
  set first : Point := ⟨a.x - map.raster.position.x, a.y - map.raster.position.y⟩
  set last : Point := ⟨b.x - map.raster.position.x, b.y - map.raster.position.y⟩
  have spans : map.Spans first last :=
    ⟨drawable.full, drawable.few, ⟨covered.between.1, drawable.width⟩,
      ⟨covered.between.2, drawable.height⟩, ⟨covered'.between.1, drawable.width⟩,
      ⟨covered'.between.2, drawable.height⟩⟩
  have traced := @Spans.drawLine_eq_trace _ value _ _ spans _ _ ordered isFirst isLast
  have raster := (@sameShape_drawLine map a b value).raster
  -- differences are the same in local coordinates
  have run : last.x - first.x = b.x - a.x := sub_sub_sub_cancel_right _ _ _
  have rise : last.y - first.y = b.y - a.y := sub_sub_sub_cancel_right _ _ _
  constructor
  case left =>
    have drawn := @Spans.sampleAt_trace_first _ value _ _ spans
    exact heightAt_of_sampleAt (traced ▸ drawn) (by rw [raster]) (by rw [raster])
  case flat =>
    intro flat
    rw [← run, ← rise] at flat
    obtain ⟨y, ends, drawn⟩ := @Spans.exists_sampleAt_trace_flat _ value _ _ spans
      (sub_le_sub_right ordered _) flat
    refine ⟨y + map.raster.position.y, ?_, ?_⟩
    · have ends' := @EndsAt.translated _ _ _ _ _ map.raster.position.y ends
      rw [run, rise, zero_add, sub_add_cancel] at ends'
      rwa [raster]
    · exact heightAt_of_sampleAt (traced ▸ drawn) (by rw [raster])
        (by rw [raster, add_sub_cancel_right])
  case steep =>
    intro steep
    rw [← run, ← rise] at steep
    obtain ⟨x, ends, drawn⟩ : ∃ x, EndsAt (last.y - first.y) (last.x - first.x) 0 last.x x ∧
        (map.trace value first last).sampleAt x last.y = .ok value := by
      rcases lt_trichotomy first.y last.y with rising | level | falling
      · exact spans.exists_sampleAt_trace_rising steep rising
      · rw [level, sub_self] at steep
        exact absurd steep (Nat.not_lt_zero _)
      · exact spans.exists_sampleAt_trace_falling steep falling
    refine ⟨x + map.raster.position.x, ?_, ?_⟩
    · have ends' := @EndsAt.translated _ _ _ _ _ map.raster.position.x ends
      rw [run, rise, zero_add, sub_add_cancel] at ends'
      rwa [raster]
    · exact heightAt_of_sampleAt (traced ▸ drawn) (by rw [raster, add_sub_cancel_right])
        (by rw [raster])

/-- A line between two points inside a map at scale one, in either order. -/
theorem drawLine_sets_ends (drawable : map.IsDrawable) {start stop : Point}
    (inRange : IsCoordinate start.x ∧ IsCoordinate start.y)
    (inRange' : IsCoordinate stop.x ∧ IsCoordinate stop.y)
    (covered : map.raster.Covers start.x start.y) (covered' : map.raster.Covers stop.x stop.y)
    (value : Height) :
    (map.drawLine start stop value).SetsEnds value (fromLeft start stop).1 (fromLeft start stop).2 := by
  rw [← drawLine_fromLeft]
  unfold fromLeft
  split
  case isTrue ordered => exact setsEnds_of_le drawable inRange inRange' covered covered' ordered
  case isFalse right =>
    exact setsEnds_of_le drawable inRange' inRange covered' covered (not_le.1 right).le

/-- New maps of these sizes. -/
theorem isDrawable_create {logical : Rectangle} (inRange : logical.Representable)
    (width : logical.size.width ≤ 2147483647) (height : logical.size.height ≤ 2147483647)
    (few : logical.size.area ≤ 2 ^ 50) (value : Height) : (create logical value 1.0).IsDrawable := by
  have same : (create logical value 1.0).raster = logical := inRange.scaled_one
  exact ⟨isFull_filled _ _ _ _, isUnscaled_create inRange value, by rwa [same], by rwa [same],
    by rwa [same]⟩

def strip (width : Nat) : HeightMap := create ⟨.origin, ⟨width, 2⟩⟩ 0 1.0

/-- Down one row over four columns, both ends are set. -/
theorem strip_five_sets_ends :
    ((strip 5).drawLine ⟨0, 0⟩ ⟨4, 1⟩ 7).heightAt 0 0 = 7 ∧
      ((strip 5).drawLine ⟨0, 0⟩ ⟨4, 1⟩ 7).heightAt 4 1 = 7 := by
  have drawable : (strip 5).IsDrawable :=
    isDrawable_create (by decide) (by decide) (by decide) (by decide) 0
  have drawn := @drawLine_sets_ends (strip 5) drawable ⟨0, 0⟩ ⟨4, 1⟩ (by decide) (by decide)
    (by decide +kernel) (by decide +kernel) 7
  have ordered : fromLeft ⟨0, 0⟩ ⟨4, 1⟩ = (⟨0, 0⟩, ⟨4, 1⟩) := rfl
  rw [ordered] at drawn
  obtain ⟨y, ends, last⟩ := drawn.flat (by decide)
  rcases ends with rfl | ⟨inexact, -⟩
  · exact ⟨drawn.left, last⟩
  · exact absurd ⟨2, by decide⟩ inexact

/-- Down one row over six columns, six sixths add up to less than one. -/
theorem strip_seven_misses_end :
    ((strip 7).drawLine ⟨0, 0⟩ ⟨6, 1⟩ 7).heightAt 6 1 = 0 ∧
      ((strip 7).drawLine ⟨0, 0⟩ ⟨6, 1⟩ 7).heightAt 6 0 = 7 := by
  decide +kernel

end HeightMap

end Terrain
