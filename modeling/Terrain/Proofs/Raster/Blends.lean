import Terrain.Proofs.Raster.Redrawing
import Terrain.Raster.Profile.Pointwise

/-!
# Profiles together

An operation with other profiles goes by the coordinates that all of them cover. It first forms the
differences of their starts and the opposite of the own one. If one of these is not a coordinate the
operation breaks off, whatever the profiles share.

* `Blend` — the operations, their operands, what they make of the heights, and how they run.
* `HeightProfile.InReach` — what is formed of the starts are coordinates.
* `blends_pointwise` — all operations, at every place.
-/

namespace Terrain

namespace HeightProfile

variable {profile other first second : HeightProfile} {x : Int}

/-- Reading another profile at a local index. -/
theorem sampleAt_shifted (addressableOther : other.interval.Addressable)
    (covered : other.interval.Covers (x + profile.interval.start)) :
    (checkCoordinate (x + (profile.interval.start - other.interval.start)) >>= other.sampleAt) =
      .ok (other.heightAt (x + profile.interval.start)) := by
  have place : x + (profile.interval.start - other.interval.start) =
      x + profile.interval.start - other.interval.start := (Int.add_sub_assoc ..).symm
  rw [place, checkCoordinate_eq (addressableOther.isCoordinate_local covered)]
  exact sampleAt_eq covered

/-- What an operation with other profiles forms of the starts are coordinates: the opposite of the own
one, and its differences to the others. -/
def InReach (profile : HeightProfile) (operands : List HeightProfile) : Prop :=
  profile.interval.start ≠ coordinateMin ∧
    ∀ operand ∈ operands, IsCoordinate (profile.interval.start - operand.interval.start)

instance (profile : HeightProfile) (operands : List HeightProfile) :
    Decidable (profile.InReach operands) :=
  inferInstanceAs (Decidable (_ ∧ _))

/-- Nothing is shared before the opposite of the start is formed. -/
theorem overlap_overflow (least : profile.interval.start = coordinateMin) (interval : Interval) :
    profile.overlap interval = .error .overflow := by
  have outside : ¬IsCoordinate (-profile.interval.start) := by
    rw [least]
    decide
  rw [overlap, checkCoordinate_overflow outside]
  rfl

/-! ## Two profiles -/

theorem redraws_zipWith (full : profile.IsFull) (addressable : profile.interval.Addressable)
    (addressableOther : other.interval.Addressable) (inReach : profile.InReach [other])
    (f : Height → Height → Height) :
    profile.Redraws (zipWith f profile other) fun x =>
      if other.interval.Covers x then f (profile.heightAt x) (other.heightAt x)
      else profile.heightAt x := by
  obtain ⟨negatable, near⟩ := inReach
  rw [zipWith, checkCoordinate_eq (near other (by simp))]
  refine redraws_overlay (f := fun x height => f height (other.heightAt x)) full addressable negatable
    fun x _ covered => ?_
  rw [← bind_assoc, sampleAt_shifted addressableOther covered]
  rfl

theorem zipWith_overflow (outOfReach : ¬profile.InReach [other]) (f : Height → Height → Height) :
    zipWith f profile other = .error .overflow := by
  rw [InReach, List.forall_mem_singleton] at outOfReach
  by_cases near : IsCoordinate (profile.interval.start - other.interval.start)
  · -- the difference is formed, so that it is the opposite of the start that is missing
    have least : profile.interval.start = coordinateMin :=
      not_not.1 fun negatable => outOfReach ⟨negatable, near⟩
    rw [zipWith, checkCoordinate_eq near, overlap_overflow least]
    rfl
  · rw [zipWith, checkCoordinate_overflow near]
    rfl

/-! ## Three profiles -/

theorem redraws_zipWith3 (full : profile.IsFull) (addressable : profile.interval.Addressable)
    (addressableFirst : first.interval.Addressable) (addressableSecond : second.interval.Addressable)
    (inReach : profile.InReach [first, second]) (f : Height → Height → Height → Height) :
    profile.Redraws (zipWith3 f profile first second) fun x =>
      if first.interval.Covers x ∧ second.interval.Covers x then
        f (profile.heightAt x) (first.heightAt x) (second.heightAt x)
      else profile.heightAt x := by
  obtain ⟨negatable, near⟩ := inReach
  rw [List.forall_mem_cons, List.forall_mem_singleton] at near
  have both {x : Int} : (Interval.intersect first.interval second.interval).Covers x ↔
      first.interval.Covers x ∧ second.interval.Covers x :=
    Interval.covers_intersect addressableFirst.length_le
  rw [zipWith3, checkCoordinate_eq near.1, checkCoordinate_eq near.2]
  refine Redraws.congr (redraws_overlay
    (f := fun x height => f height (first.heightAt x) (second.heightAt x)) full addressable negatable
    fun x _ covered => ?_) fun x _ => ?_
  · rw [← bind_assoc, sampleAt_shifted addressableFirst (both.1 covered).1]
    change checkCoordinate _ >>= _ = _
    rw [← bind_assoc, sampleAt_shifted addressableSecond (both.1 covered).2]
    rfl
  · simp only [both]

theorem zipWith3_overflow (outOfReach : ¬profile.InReach [first, second])
    (f : Height → Height → Height → Height) :
    zipWith3 f profile first second = .error .overflow := by
  rw [InReach, List.forall_mem_cons, List.forall_mem_singleton] at outOfReach
  by_cases near : IsCoordinate (profile.interval.start - first.interval.start)
  · by_cases near' : IsCoordinate (profile.interval.start - second.interval.start)
    · have least : profile.interval.start = coordinateMin :=
        not_not.1 fun negatable => outOfReach ⟨negatable, near, near'⟩
      rw [zipWith3, checkCoordinate_eq near, checkCoordinate_eq near', overlap_overflow least]
      rfl
    · rw [zipWith3, checkCoordinate_eq near, checkCoordinate_overflow near']
      rfl
  · rw [zipWith3, checkCoordinate_overflow near]
    rfl

end HeightProfile

/-! ## The operations -/

inductive Blend where
  | sum (addend : HeightProfile)
  | lower (other : HeightProfile)
  | higher (other : HeightProfile)
  | masked (addend : Height) (mask : HeightProfile)
  | sumMasked (addend mask : HeightProfile)
  | combination (other mask : HeightProfile)

namespace Blend

def operands : Blend → List HeightProfile
  | sum addend => [addend]
  | lower other => [other]
  | higher other => [other]
  | masked _ mask => [mask]
  | sumMasked addend mask => [addend, mask]
  | combination other mask => [other, mask]

def apply : Blend → Int → Height → Height
  | sum addend, x, height => addHeights height (addend.heightAt x)
  | lower other, x, height => min height (other.heightAt x)
  | higher other, x, height => max height (other.heightAt x)
  | masked addend mask, x, height =>
    addHeights height (weighted addend (maskFactor (mask.heightAt x)))
  | sumMasked addend mask, x, height =>
    addHeights height (weighted (addend.heightAt x) (maskFactor (mask.heightAt x)))
  | combination other mask, x, height =>
    addHeights (weighted height (maskFactor (mask.heightAt x)))
      (weighted (other.heightAt x) (1.0 - maskFactor (mask.heightAt x)))

def run : Blend → HeightProfile → Except Breach HeightProfile
  | sum addend, profile => profile.addProfile addend
  | lower other, profile => profile.intersect other
  | higher other, profile => profile.unify other
  | masked addend mask, profile => profile.addMasked addend mask
  | sumMasked addend mask, profile => profile.addProfileMasked addend mask
  | combination other mask, profile => profile.combine other mask

variable {blend : Blend} {profile other first second : HeightProfile}

/-- The operation goes by the coordinates that all profiles cover, or breaks off for the places alone. -/
def Pointwise (blend : Blend) (profile : HeightProfile) : Prop :=
  (profile.InReach blend.operands → profile.Redraws (blend.run profile) fun x =>
    if ∀ operand ∈ blend.operands, operand.interval.Covers x then blend.apply x (profile.heightAt x)
    else profile.heightAt x) ∧
  (¬profile.InReach blend.operands → blend.run profile = .error .overflow)

theorem pointwise_of_zipWith {f : Height → Height → Height} (full : profile.IsFull)
    (addressable : profile.interval.Addressable)
    (addressables : ∀ operand ∈ blend.operands, operand.interval.Addressable)
    (operands : blend.operands = [other]) (runs : blend.run profile = HeightProfile.zipWith f profile other)
    (applies : ∀ x height, blend.apply x height = f height (other.heightAt x)) :
    blend.Pointwise profile := by
  unfold Pointwise
  rw [operands, List.forall_mem_singleton] at addressables
  simp only [operands, runs, applies, List.forall_mem_singleton]
  exact ⟨fun inReach => HeightProfile.redraws_zipWith full addressable addressables inReach f,
    fun outOfReach => HeightProfile.zipWith_overflow outOfReach f⟩

theorem pointwise_of_zipWith3 {f : Height → Height → Height → Height} (full : profile.IsFull)
    (addressable : profile.interval.Addressable)
    (addressables : ∀ operand ∈ blend.operands, operand.interval.Addressable)
    (operands : blend.operands = [first, second])
    (runs : blend.run profile = HeightProfile.zipWith3 f profile first second)
    (applies : ∀ x height, blend.apply x height = f height (first.heightAt x) (second.heightAt x)) :
    blend.Pointwise profile := by
  have all (x : Int) : (∀ operand ∈ [first, second], operand.interval.Covers x) ↔
      first.interval.Covers x ∧ second.interval.Covers x := by
    rw [List.forall_mem_cons, List.forall_mem_singleton]
  unfold Pointwise
  rw [operands, List.forall_mem_cons, List.forall_mem_singleton] at addressables
  simp only [operands, runs, applies, all]
  exact ⟨fun inReach => HeightProfile.redraws_zipWith3 full addressable addressables.1 addressables.2
    inReach f, fun outOfReach => HeightProfile.zipWith3_overflow outOfReach f⟩

end Blend

/-- Profiles at any place. -/
theorem blends_pointwise {profile : HeightProfile} (full : profile.IsFull)
    (addressable : profile.interval.Addressable) {blend : Blend}
    (addressables : ∀ operand ∈ blend.operands, operand.interval.Addressable) :
    blend.Pointwise profile := by
  have two {other : HeightProfile} {f : Height → Height → Height} :=
    @Blend.pointwise_of_zipWith blend profile other f full addressable addressables
  have three {first second : HeightProfile} {f : Height → Height → Height → Height} :=
    @Blend.pointwise_of_zipWith3 blend profile first second f full addressable addressables
  cases blend with
  | sum addend => exact two rfl rfl fun _ _ => rfl
  | lower other => exact two rfl rfl fun _ _ => rfl
  | higher other => exact two rfl rfl fun _ _ => rfl
  | masked addend mask => exact two rfl rfl fun _ _ => rfl
  | sumMasked addend mask => exact three rfl rfl fun _ _ => rfl
  | combination other mask => exact three rfl rfl fun _ _ => rfl

def post (start : Coordinate) (height : Height) : HeightProfile := .filled ⟨start, 1⟩ height 1.0

/-- Profiles that share nothing but are far apart, and profiles at the least coordinate. -/
theorem posts_overflow :
    (∀ start height, (post start height).IsFull) ∧ (post 1 1).interval.Addressable ∧
    (post (-2147483647) 5).interval.Addressable ∧ (post (-2147483648) 5).interval.Addressable ∧
    (∀ x, ¬((post 1 1).interval.Covers x ∧ (post (-2147483647) 5).interval.Covers x)) ∧
    (post 1 1).addProfile (post (-2147483647) 5) = .error .overflow ∧
    (post (-2147483648) 1).addProfile (post (-2147483648) 5) = .error .overflow := by
  refine ⟨fun _ _ => HeightProfile.isFull_filled _ _ _, by decide, by decide, by decide,
    fun x covered => ?_, rfl, rfl⟩
  have first : (1 : Int) ≤ x ∧ x < 2 := covered.1
  have second : (-2147483647 : Int) ≤ x ∧ x < -2147483646 := covered.2
  omega

/-- Profiles that share a part of both. -/
theorem fences_pointwise :
    ∃ sum, (HeightProfile.filled ⟨-3, 4⟩ 30000 1.0).addProfile (.filled ⟨-1, 9⟩ 5000 1.0) = .ok sum ∧
      sum.heightAt (-2) = 30000 ∧ sum.heightAt (-1) = 32767 ∧ sum.heightAt 0 = 32767 := by
  have blends := @blends_pointwise (.filled ⟨-3, 4⟩ 30000 1.0) (HeightProfile.isFull_filled _ _ _)
    (by decide) (.sum (.filled ⟨-1, 9⟩ 5000 1.0)) (List.forall_mem_singleton.2 (by decide))
  obtain ⟨sum, ran, -, heights⟩ := blends.1 (by decide)
  exact ⟨sum, ran, heights (-2) (by decide), heights (-1) (by decide), heights 0 (by decide)⟩

end Terrain
