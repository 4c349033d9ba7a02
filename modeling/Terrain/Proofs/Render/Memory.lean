import Terrain.Proofs.Plan.Budget
import Terrain.Proofs.Render.Recorded

/-!
# The budget and the rasters

Rendering and the books of its budget go in step. As long as no step moves, rescales or flips a raster,
every filled slot holds a raster over the footprint that the books have for it, and so what the
rasters and the yielded maps take is within what was required for the step.

* `Raster.Over` — a raster is drawn over bounds at a scale.
* `RasterTable.Tracks` — the footprints are those of the rasters in a table.
* `Renderer.memory_within_budget` — the budget bounds what is held.
-/

namespace Terrain

/-! ## Rasters over bounds -/

/-- A raster is drawn over bounds at a scale, with all of its samples. -/
def Raster.Over (scale : Scale) : Raster → Bounds → Prop
  | .map raster, .rectangle extent =>
    raster.logical = extent ∧ raster.raster = extent.scaled scale ∧ raster.scale = scale ∧ raster.IsFull
  | .profile raster, .interval extent =>
    raster.interval = extent.scaled scale ∧ raster.scale = scale ∧ raster.IsFull
  | _, _ => False

namespace Raster

variable {scale : Scale} {raster : Raster} {bounds : Bounds}

theorem Over.atScale (lies : raster.Over scale bounds) : raster.scale = scale := by
  cases raster with
  | map raster =>
    cases bounds with
    | rectangle extent => exact lies.2.2.1
    | interval extent => exact lies.elim
  | profile raster =>
    cases bounds with
    | rectangle extent => exact lies.elim
    | interval extent => exact lies.2.1

/-- The bytes of a raster are those of its bounds, unless these are empty. -/
theorem Over.memorySize (lies : raster.Over scale bounds) (nonempty : bounds.isEmpty = false) :
    raster.memorySize = bounds.bytes scale := by
  unfold Bounds.bytes
  rw [nonempty, if_neg (by simp)]
  cases raster with
  | map raster =>
    cases bounds with
    | rectangle extent =>
      obtain ⟨-, placed, -, full⟩ := lies
      rw [Raster.memorySize, HeightMap.ownMemorySize, full, placed]
    | interval extent => exact lies.elim
  | profile raster =>
    cases bounds with
    | rectangle extent => exact lies.elim
    | interval extent =>
      obtain ⟨placed, -, full⟩ := lies
      rw [Raster.memorySize, HeightProfile.ownMemorySize, full, placed]

end Raster

section Shapes

variable {scale : Scale} {height : Height}

theorem over_create {map : HeightMap} {extent : Rectangle}
    (same : (HeightMap.create extent height scale).SameShape map) :
    (Raster.map map).Over scale (.rectangle extent) :=
  ⟨same.logical, same.raster, same.scale, same.full (HeightMap.isFull_filled _ _ _ _)⟩

theorem over_forLogical {profile : HeightProfile} {extent : Interval}
    (same : (HeightProfile.forLogical extent height scale).SameShape profile) :
    (Raster.profile profile).Over scale (.interval extent) :=
  ⟨same.interval, same.scale, same.full (HeightProfile.isFull_filled _ _ _)⟩

theorem over_sameShape {map other : HeightMap} {bounds : Bounds}
    (lies : (Raster.map map).Over scale bounds) (same : map.SameShape other) :
    (Raster.map other).Over scale bounds := by
  cases bounds with
  | rectangle extent =>
    obtain ⟨logical, placed, atScale, full⟩ := lies
    exact ⟨same.logical.trans logical, same.raster.trans placed, same.scale.trans atScale, same.full full⟩
  | interval extent => exact lies.elim

theorem over_sameShape_profile {profile other : HeightProfile} {bounds : Bounds}
    (lies : (Raster.profile profile).Over scale bounds) (same : profile.SameShape other) :
    (Raster.profile other).Over scale bounds := by
  cases bounds with
  | rectangle extent => exact lies.elim
  | interval extent =>
    obtain ⟨placed, atScale, full⟩ := lies
    exact ⟨same.interval.trans placed, same.scale.trans atScale, same.full full⟩

end Shapes

/-- An edit leaves the raster over the footprint that the plan has for it. -/
theorem MapEdit.over_template {step : Step} {edit : MapEdit} {own footprint bounds : Bounds}
    {scale : Scale} {map after : HeightMap} (action : step.action = .editMap edit)
    (still : step.action.isStill = true) (ownKind : own.kind = .map)
    (lies : (Raster.map map).Over scale footprint) (same : (edit.template own map).SameShape after)
    (planned : step.footprintAfter own footprint = .ok bounds) :
    (Raster.map after).Over scale bounds := by
  rw [action] at still
  unfold Step.footprintAfter at planned
  rw [action] at planned
  obtain rfl : map.scale = scale := lies.atScale
  cases edit with
  | move offset => cases still
  | rescale horizontal vertical => cases still
  | resize rectangle height =>
    cases planned
    exact over_create same
  | transform matrix =>
    cases planned
    cases own with
    | rectangle extent => exact over_create same
    | interval extent => cases ownKind
  | _ =>
    cases planned
    exact over_sameShape lies same

theorem ProfileEdit.over_template {step : Step} {edit : ProfileEdit} {own footprint bounds : Bounds}
    {scale : Scale} {profile after : HeightProfile} (action : step.action = .editProfile edit)
    (still : step.action.isStill = true) (lies : (Raster.profile profile).Over scale footprint)
    (same : (edit.template profile).SameShape after)
    (planned : step.footprintAfter own footprint = .ok bounds) :
    (Raster.profile after).Over scale bounds := by
  rw [action] at still
  unfold Step.footprintAfter at planned
  rw [action] at planned
  obtain rfl : profile.scale = scale := lies.atScale
  cases edit with
  | flip => cases still
  | move offset => cases still
  | rescale factor => cases still
  | resize interval height =>
    cases planned
    exact over_forLogical same
  | _ =>
    cases planned
    exact over_sameShape_profile lies same

/-! ## Tables and footprints -/

namespace RasterTable

variable {table : RasterTable} {scale : Scale} {footprints after : Std.TreeMap Slot Bounds}
  {slot : Slot} {raster : Raster} {bounds : Bounds}

/-- The footprints are those of the rasters in the table, slot by slot. -/
def Tracks (table : RasterTable) (scale : Scale) (footprints : Std.TreeMap Slot Bounds) : Prop :=
  ∀ slot : Slot, Option.Rel (Raster.Over scale) (table.get? slot) footprints[slot]?

theorem tracks_ofSize (size : Nat) (scale : Scale) : (ofSize size).Tracks scale ∅ := by
  intro slot
  rw [get?_ofSize, Std.TreeMap.getElem?_emptyc]
  exact .none

theorem Tracks.exists_footprint (tracks : table.Tracks scale footprints)
    (found : table.get? slot = some raster) :
    ∃ bounds, footprints[slot]? = some bounds ∧ raster.Over scale bounds := by
  have related := tracks slot
  rw [found] at related
  cases footprint : footprints[slot]? with
  | none =>
    rw [footprint] at related
    cases related
  | some bounds =>
    rw [footprint] at related
    cases related with
    | some lies => exact ⟨bounds, rfl, lies⟩

theorem Tracks.isSome_eq (tracks : table.Tracks scale footprints) (slot : Slot) :
    footprints[slot]?.isSome = (table.get? slot).isSome := by
  have related := tracks slot
  generalize table.get? slot = filled at related
  generalize footprints[slot]? = footprint at related
  cases related <;> rfl

theorem Tracks.isAt (tracks : table.Tracks scale footprints) : table.IsAt scale := by
  intro slot raster found
  obtain ⟨bounds, -, lies⟩ := tracks.exists_footprint found
  exact lies.atScale

theorem Tracks.set (tracks : table.Tracks scale footprints) (lies : raster.Over scale bounds) :
    (table.set slot raster).Tracks scale (footprints.insert slot bounds) := by
  intro other
  simp only [get?_set, Std.TreeMap.getElem?_insert, Nat.compare_eq_eq, @eq_comm Slot slot other]
  split
  · exact .some lies
  · exact tracks other

theorem Tracks.release (tracks : table.Tracks scale footprints)
    (erased : ∀ other : Slot, after[other]? = if other = slot then none else footprints[other]?) :
    (table.release slot).Tracks scale after := by
  intro other
  rw [get?_release, erased]
  split
  · exact .none
  · exact tracks other

/-- Slots are freed in the table and in the books. -/
theorem Tracks.foldl_release {slots : List Slot} {steps : List Step} {budget freed : Budget.State}
    (balanced : budget.Balanced scale steps) (tracks : table.Tracks scale budget.footprints)
    (run : slots.foldlM (Budget.State.free scale) budget = .ok freed) :
    (slots.foldl RasterTable.release table).Tracks scale freed.footprints := by
  induction slots generalizing table budget with
  | nil =>
    cases run
    exact tracks
  | cons slot slots ih =>
    rw [List.foldlM_cons] at run
    obtain ⟨next, freeing, rest⟩ := checked_bind_eq_ok run
    obtain ⟨_, freeing', balanced, erased⟩ := Budget.exists_free balanced slot
    cases freeing.symm.trans freeing'
    exact ih balanced (tracks.release erased) rest

/-- Bytes of the rasters in all slots whose footprint is not empty. -/
def bytesOver (table : RasterTable) (footprints : Std.TreeMap Slot Bounds) : Nat :=
  ((List.range table.size).map fun slot =>
    match table.get? slot, footprints[slot]? with
    | some raster, some bounds => if bounds.isEmpty then 0 else raster.memorySize
    | _, _ => 0).sum

/-- Summing over slots or over footprints gives the same. -/
theorem sum_range_eq_total {size : Nat} (figure : Bounds → Nat)
    (inside : ∀ slot : Slot, footprints[slot]?.isSome → slot < size) :
    ((List.range size).map fun slot => (footprints[slot]?).elim 0 figure).sum =
      total footprints figure := by
  have pairs : ∀ slots : List Slot,
      (slots.map fun slot => (footprints[slot]?).elim 0 figure).sum =
        ((slots.filterMap fun slot => footprints[slot]?.map (slot, ·)).map
          fun entry => figure entry.2).sum := by
    intro slots
    induction slots with
    | nil => rfl
    | cons slot slots ih =>
      rw [List.map_cons, List.sum_cons, ih]
      cases found : footprints[slot]? with
      | none => simp [found]
      | some bounds => simp [found]
  rw [pairs]
  refine (total_eq_sum figure ?_ ?_).symm
  · refine List.nodup_range.filterMap ?_
    intro slot other entry first second
    simp only [Option.mem_def, Option.map_eq_some_iff] at first second
    obtain ⟨_, -, rfl⟩ := first
    obtain ⟨_, -, same⟩ := second
    exact (congrArg Prod.fst same).symm
  · intro slot bounds
    simp only [List.mem_filterMap, List.mem_range, Option.map_eq_some_iff, Prod.mk.injEq]
    constructor
    · intro found
      exact ⟨slot, inside slot (by simp [found]), bounds, found, rfl, rfl⟩
    · rintro ⟨_, -, _, found, rfl, rfl⟩
      exact found

/-- The rasters take what the books have for their footprints. -/
theorem Tracks.bytesOver_eq (tracks : table.Tracks scale footprints) :
    table.bytesOver footprints = total footprints (·.bytes scale) := by
  have inside (slot : Slot) (present : footprints[slot]?.isSome) : slot < table.size := by
    by_contra outside
    rw [tracks.isSome_eq, get?, Array.getElem?_eq_none (Nat.le_of_not_lt outside)] at present
    cases present
  rw [bytesOver, ← sum_range_eq_total _ inside]
  congr 1
  refine List.map_congr_left fun slot _ => ?_
  cases found : table.get? slot with
  | none =>
    have missing := tracks.isSome_eq slot
    rw [found, Option.isSome_none, Option.isSome_eq_false_iff, Option.isNone_iff_eq_none] at missing
    rw [missing]
    rfl
  | some raster =>
    obtain ⟨bounds, footprint, lies⟩ := tracks.exists_footprint found
    rw [footprint]
    dsimp only [Option.elim]
    split
    case isTrue empty => exact (if_pos empty).symm
    case isFalse nonempty => exact lies.memorySize (by simpa using nonempty)

end RasterTable

/-! ## Galleries -/

namespace Gallery

/-- Bytes of all maps whose rectangle is not empty. -/
def bytes (gallery : Gallery) : Nat :=
  total gallery.maps fun map => if map.logical.isEmpty then 0 else map.ownMemorySize

/-- A map that replaces another of its name makes at most its own bytes more. -/
theorem bytes_insert_le {gallery : Gallery} {map : HeightMap} {rectangle : Rectangle} {scale : Scale}
    (name : String) (lies : (Raster.map map).Over scale (.rectangle rectangle)) :
    (gallery.insert name map).bytes ≤ gallery.bytes + (Bounds.rectangle rectangle).bytes scale := by
  have figure : (if map.logical.isEmpty then 0 else map.ownMemorySize) =
      (Bounds.rectangle rectangle).bytes scale := by
    rw [lies.1]
    split
    case isTrue empty => exact (if_pos empty).symm
    case isFalse nonempty => exact Raster.Over.memorySize lies (by simpa [Bounds.isEmpty] using nonempty)
  unfold bytes insert
  rw [total_insert, figure, Nat.add_comm]
  exact Nat.add_le_add_right (total_erase_le _) _

end Gallery

/-! ## Steps -/

/-- A step changes rasters as the books have it, and yields what the books count for it. -/
theorem RasterTable.Tracks.run {step : Step} {own : Bounds} {scale : Scale} {table after : RasterTable}
    {gallery hung : Gallery} {budget performed : Budget.State} {steps : List Step}
    (still : step.action.isStill = true) (ownKind : own.kind = step.action.kind)
    (supplies : (step.inputs table).Supplies step.action.argumentKind step.action.arity)
    (balanced : budget.Balanced scale steps) (tracks : table.Tracks scale budget.footprints)
    (performing : budget.perform step own scale = .ok performed)
    (ran : step.run own scale table gallery = .ok (after, hung)) :
    after.Tracks scale performed.footprints ∧ hung.bytes ≤ gallery.bytes + step.yielded scale := by
  unfold Budget.State.perform at performing
  unfold Step.yielded
  have atScale : (step.inputs table).All (·.scale = scale) := ArgumentReader.all_ofSlots tracks.isAt
  cases Step.changes_of_run ran with
  | madeMap action bounds made =>
    cases bounds
    rw [action] at supplies performing ⊢
    have lies := over_create ((MapMaker.fits_run _ scale supplies).ok made atScale)
    obtain ⟨-, footprints, -⟩ := Budget.balanced_replace balanced performing
    exact ⟨footprints ▸ tracks.set lies, Nat.le_refl _⟩
  | madeProfile action bounds made =>
    cases bounds
    rw [action] at supplies performing ⊢
    have lies := over_forLogical ((ProfileMaker.fits_run _ scale supplies).ok made atScale)
    obtain ⟨-, footprints, -⟩ := Budget.balanced_replace balanced performing
    exact ⟨footprints ▸ tracks.set lies, Nat.le_refl _⟩
  | @shown _ _ map _ action found made =>
    rw [action] at performing ⊢
    have lies := over_create ((HeightMap.fits_zipWith _).ok made)
    rw [show map.scale = scale from tracks.isAt _ _ found] at lies
    rw [(Budget.occupy_eq_ok performing).1]
    exact ⟨tracks, Gallery.bytes_insert_le _ lies⟩
  | editedMap action found made =>
    have edits : step.isMaker = false := by rw [Step.isMaker, action, Action.isMaker]
    rw [action] at ownKind supplies performing ⊢
    obtain ⟨footprint, recorded, lies⟩ := tracks.exists_footprint found
    obtain ⟨bounds, planned, replaced⟩ := checked_bind_eq_ok performing
    rw [Budget.footprint_eq edits recorded] at planned
    have same := (MapEdit.fits_run ownKind supplies).ok made
    obtain ⟨-, footprints, -⟩ := Budget.balanced_replace balanced replaced
    exact ⟨footprints ▸ tracks.set (MapEdit.over_template action still ownKind lies same planned),
      Nat.le_refl _⟩
  | editedProfile action found made =>
    have edits : step.isMaker = false := by rw [Step.isMaker, action, Action.isMaker]
    rw [action] at supplies performing ⊢
    obtain ⟨footprint, recorded, lies⟩ := tracks.exists_footprint found
    obtain ⟨bounds, planned, replaced⟩ := checked_bind_eq_ok performing
    rw [Budget.footprint_eq edits recorded] at planned
    have same := (ProfileEdit.fits_run supplies).ok made
    obtain ⟨-, footprints, -⟩ := Budget.balanced_replace balanced replaced
    exact ⟨footprints ▸ tracks.set (ProfileEdit.over_template action still lies same planned),
      Nat.le_refl _⟩

/-! ## Rendering -/

namespace Renderer

variable {sequence : Sequence} {renderer after : Renderer} {memoryLimit : Nat}

/-- The books before the next step are those of the rasters and of the yielded maps. -/
def InStep (renderer : Renderer) (sequence : Sequence) : Prop :=
  ∀ items budget, Schedule.itemsOf sequence = .ok items →
    Schedule.before sequence.scale items renderer.cursor = .ok budget →
      renderer.table.Tracks sequence.scale budget.footprints ∧
        renderer.gallery.bytes ≤ yielded (sequence.steps.toList.take renderer.cursor) sequence.scale

/-- The books when the work of the next step is done and nothing has been freed yet. -/
structure Performed (renderer : Renderer) (sequence : Sequence) (step : Step) (facts : StepFacts)
    (table : RasterTable) (gallery : Gallery) (items : List (Step × Bounds × List Slot))
    (budget performed next : Budget.State) : Prop where
  listed : Schedule.itemsOf sequence = .ok items
  item : items[renderer.cursor]? = some (step, facts.bounds, facts.releases)
  before : Schedule.before sequence.scale items renderer.cursor = .ok budget
  advanced : Budget.advance sequence.scale budget step facts.bounds facts.releases =
    .ok (facts.memory, next)
  performing : budget.perform step facts.bounds sequence.scale = .ok performed
  freed : facts.releases.foldlM (Budget.State.free sequence.scale) performed = .ok next
  balanced : performed.Balanced sequence.scale (sequence.steps.toList.take (renderer.cursor + 1))
  tracks : table.Tracks sequence.scale performed.footprints
  hung : gallery.bytes ≤ yielded (sequence.steps.toList.take (renderer.cursor + 1)) sequence.scale
  required : performed.resident ≤ facts.memory

/-- The next step of a sequence, carried out and on the books. -/
theorem InStep.exists_performed {schedule : Schedule} {step : Step} {facts : StepFacts}
    {table : RasterTable} {gallery : Gallery} (wellFormed : sequence.WellFormed)
    (still : ∀ step ∈ sequence.steps, step.action.isStill = true) (sound : renderer.Sound sequence)
    (inStep : renderer.InStep sequence) (scheduled : renderer.schedule? = some schedule)
    (found : sequence.steps[renderer.cursor]? = some step)
    (foundFacts : schedule[renderer.cursor]? = some facts)
    (ran : step.run facts.bounds sequence.scale renderer.table renderer.gallery = .ok (table, gallery)) :
    ∃ items budget performed next,
      renderer.Performed sequence step facts table gallery items budget performed next := by
  have consistent := wellFormed.consistent
  have made := sound.schedule schedule scheduled
  obtain ⟨items, listed, known⟩ := Schedule.exists_advance_of_ofSequence made
  obtain ⟨other, budget, next, item, before, advanced⟩ := known _ _ foundFacts
  -- the step of the item is the one the renderer has found
  have steps := Schedule.map_fst_itemsOf consistent listed
  have foundList : sequence.steps.toList[renderer.cursor]? = some step := by simpa using found
  obtain rfl : other = step := by simpa [← steps, item] using foundList
  obtain ⟨extra, performed, taken, memory, performing, freed⟩ := Budget.advance_eq_ok advanced
  obtain ⟨tracks, hung⟩ := inStep items budget listed before
  have balanced := Schedule.balanced_before before
  rw [List.map_take, steps] at balanced
  obtain ⟨_, foundStep, ownKind, -⟩ := Schedule.facts_of_ofSequence consistent made foundFacts
  cases found.symm.trans foundStep
  have stillStep := still other (Array.mem_of_getElem? found)
  have supplies := sound.supplies wellFormed found
  have played := tracks.run stillStep ownKind supplies balanced performing ran
  have more : sequence.steps.toList.take (renderer.cursor + 1) =
      sequence.steps.toList.take renderer.cursor ++ [other] := by
    rw [List.take_add_one, foundList, Option.toList_some]
  refine ⟨items, budget, performed, next, listed, item, before, advanced, performing, freed, ?_, played.1,
    ?_, ?_⟩
  · rw [more]
    exact Budget.balanced_perform balanced performing
  · rw [more, Budget.yielded_snoc]
    exact played.2.trans (Nat.add_le_add_right hung _)
  · rw [memory]
    exact Budget.resident_le balanced (Action.shifts_of_isStill stillStep) taken performing

theorem inStep_start (sequence : Sequence) (memoryLimit : Nat) :
    (start sequence memoryLimit).InStep sequence := by
  intro items budget _ before
  cases before
  exact ⟨RasterTable.tracks_ofSize _ _, Nat.le_refl _⟩

/-- Rendering and the books go in step. -/
theorem InStep.moves (wellFormed : sequence.WellFormed)
    (still : ∀ step ∈ sequence.steps, step.action.isStill = true) (sound : renderer.Sound sequence)
    (inStep : renderer.InStep sequence) (moves : renderer.Moves after) : after.InStep sequence := by
  rcases moves with ⟨table, gallery, cursor⟩ | ⟨schedule, step, facts, table, takes⟩
  · unfold InStep
    rw [table, gallery, cursor]
    exact inStep
  · obtain ⟨scheduled, found, foundFacts, ran, released, cursor⟩ := takes
    rw [sound.works] at found ran
    obtain ⟨items, budget, performed, next, books⟩ :=
      inStep.exists_performed wellFormed still sound scheduled found foundFacts ran
    intro items' after' listed' before'
    cases books.listed.symm.trans listed'
    rw [cursor, Schedule.before_succ books.item, books.before] at before'
    obtain ⟨_, ⟨⟩, rest⟩ := checked_bind_eq_ok before'
    obtain ⟨_, advanced, ended⟩ := checked_bind_eq_ok rest
    cases books.advanced.symm.trans advanced
    cases ended
    rw [released, cursor]
    exact ⟨books.tracks.foldl_release books.balanced books.freed, books.hung⟩

theorem Reached.inStep (wellFormed : sequence.WellFormed)
    (still : ∀ step ∈ sequence.steps, step.action.isStill = true)
    (reached : Reached sequence memoryLimit renderer) : renderer.InStep sequence :=
  reached.keeps (InStep · sequence) wellFormed (inStep_start sequence memoryLimit)
    fun sound inStep moves => InStep.moves wellFormed still sound inStep moves

/-- The budget bounds what is held. In a well-formed sequence without steps that move, rescale or flip a
raster:

* The books are balanced at all times: before every step, after its work, and after any of its
  releases. So nothing is taken off that was not counted.
* Once any step has been carried out, and before its releases, the filled slots are those with a
  footprint on the books. A map lies over its footprint, logically and in samples, and a profile over
  the samples of its footprint. What the rasters with a footprint that is not empty and the yielded
  maps that are not empty take is at most the memory required for the step. -/
theorem memory_within_budget (wellFormed : sequence.WellFormed)
    (still : ∀ step ∈ sequence.steps, step.action.isStill = true) :
    (∀ items, Schedule.itemsOf sequence = .ok items → ∀ index budget,
      Schedule.before sequence.scale items index = .ok budget →
        budget.Balanced sequence.scale (sequence.steps.toList.take index) ∧
        ∀ step own releases performed, items[index]? = some (step, own, releases) →
          budget.perform step own sequence.scale = .ok performed → ∀ count freed,
            (releases.take count).foldlM (Budget.State.free sequence.scale) performed = .ok freed →
              freed.Balanced sequence.scale (sequence.steps.toList.take (index + 1))) ∧
    ∀ memoryLimit renderer, Reached sequence memoryLimit renderer →
      ∀ schedule step facts table gallery, renderer.schedule? = some schedule →
        sequence.steps[renderer.cursor]? = some step → schedule[renderer.cursor]? = some facts →
        step.run facts.bounds sequence.scale renderer.table renderer.gallery = .ok (table, gallery) →
          ∃ items budget performed, Schedule.itemsOf sequence = .ok items ∧
            Schedule.before sequence.scale items renderer.cursor = .ok budget ∧
            budget.perform step facts.bounds sequence.scale = .ok performed ∧
            (∀ slot, (performed.footprints[slot]?).isSome = table.contains slot) ∧
            (∀ slot map, table.get? slot = some (.map map) →
              performed.footprints[slot]? = some (.rectangle map.logical) ∧
                map.raster = map.logical.scaled sequence.scale) ∧
            (∀ slot profile, table.get? slot = some (.profile profile) →
              ∃ extent, performed.footprints[slot]? = some (.interval extent) ∧
                profile.interval = extent.scaled sequence.scale) ∧
            table.bytesOver performed.footprints + gallery.bytes ≤ facts.memory := by
  refine ⟨fun items listed index budget before => ?_, ?_⟩
  · have steps := Schedule.map_fst_itemsOf wellFormed.consistent listed
    have balanced := Schedule.balanced_before before
    rw [List.map_take, steps] at balanced
    refine ⟨balanced, fun step own releases performed item performing count freed freeing => ?_⟩
    have found : sequence.steps.toList[index]? = some step := by rw [← steps, List.getElem?_map, item]; rfl
    rw [List.take_add_one, found]
    exact Budget.balanced_foldlM_free (Budget.balanced_perform balanced performing) freeing
  · intro memoryLimit renderer reached schedule step facts table gallery scheduled found foundFacts ran
    obtain ⟨items, budget, performed, next, books⟩ := (reached.inStep wellFormed still).exists_performed
      wellFormed still (reached.sound wellFormed) scheduled found foundFacts ran
    refine ⟨items, budget, performed, books.listed, books.before, books.performing,
      books.tracks.isSome_eq, fun slot map filled => ?_, fun slot profile filled => ?_, ?_⟩
    · obtain ⟨bounds, footprint, lies⟩ := books.tracks.exists_footprint filled
      cases bounds with
      | interval extent => exact lies.elim
      | rectangle extent =>
        obtain ⟨rfl, placed, -⟩ := lies
        exact ⟨footprint, placed⟩
    · obtain ⟨bounds, footprint, lies⟩ := books.tracks.exists_footprint filled
      cases bounds with
      | rectangle extent => exact lies.elim
      | interval extent => exact ⟨extent, footprint, lies.1⟩
    · have resident := books.balanced.resident
      have hung := books.hung
      have required := books.required
      rw [books.tracks.bytesOver_eq]
      omega

def exhibit : Step := ⟨⟨3, 1⟩, .yield "sketch" ⟨⟨0, 0⟩, ⟨4, 2⟩⟩, [], 0⟩

/-- A flat map that is turned over and exhibited, at half of the scale. -/
def sketch : Sequence where
  steps := #[⟨⟨1, 1⟩, .makeMap (.flat 7), [], 0⟩, ⟨⟨2, 1⟩, .editMap .invert, [], 0⟩, exhibit]
  scale := 0.5
  limit := 3
  slotCount := 1

theorem sketch_wellFormed : sketch.WellFormed := by
  refine ⟨Consistent.snoc (.snoc (.snoc consistent_nil ?_) ?_) ?_, by decide⟩
  all_goals decide

def sketched : Nat → Renderer :=
  played sketch 136

theorem reached_sketched : Reached sketch 136 (sketched 2) :=
  reached_played (by decide +kernel) (by decide +kernel)

/-- The map and its copy take no more than was required for the copy. -/
theorem sketch_within_budget : ∃ table gallery items budget performed,
    exhibit.run (.rectangle .empty) 0.5 (sketched 2).table (sketched 2).gallery = .ok (table, gallery) ∧
      Schedule.itemsOf sketch = .ok items ∧ Schedule.before 0.5 items 2 = .ok budget ∧
      budget.perform exhibit (.rectangle .empty) 0.5 = .ok performed ∧
      table.bytesOver performed.footprints + gallery.bytes ≤ 136 := by
  have ended : (exhibit.run (.rectangle .empty) 0.5 (sketched 2).table (sketched 2).gallery).isOk = true := by
    decide +kernel
  have cursor : (sketched 2).cursor = 2 := by decide +kernel
  cases ran : exhibit.run (.rectangle .empty) 0.5 (sketched 2).table (sketched 2).gallery with
  | error breach =>
    rw [ran] at ended
    cases ended
  | ok result =>
    obtain ⟨table, gallery⟩ := result
    obtain ⟨items, budget, performed, listed, before, performing, -, -, -, within⟩ :=
      (memory_within_budget sketch_wellFormed (by decide)).2 136 (sketched 2) reached_sketched
        #[⟨.rectangle ⟨⟨0, 0⟩, ⟨4, 2⟩⟩, 68, []⟩, ⟨.rectangle ⟨⟨0, 0⟩, ⟨4, 2⟩⟩, 68, []⟩,
          ⟨.rectangle .empty, 136, [0]⟩]
        exhibit ⟨.rectangle .empty, 136, [0]⟩ table gallery (by decide +kernel) (by rw [cursor]; rfl)
        (by rw [cursor]; rfl) ran
    rw [cursor] at before
    exact ⟨table, gallery, items, budget, performed, rfl, listed, before, performing, within⟩

end Renderer

end Terrain
