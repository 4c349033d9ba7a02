import Terrain.Proofs.Native.Recordable
import Terrain.Proofs.Render.Heights
import Terrain.Proofs.Render.Views

/-!
# Recorded heights

Scripts give heights as numbers in `[-1, 1]`, and readers turn them into heights before anything is
recorded; the defaults are heights as well. So all that a step carries as a height is one, and with it
all that is ever rendered.

* `NativeCall.gives_height`, `NativeCall.gives_noiseTable`, … — what readers answer.
* `Native.Recordable.inRange` — recorded actions carry heights.
* `Machine.rendered_samples_are_heights` — rendered samples are heights, at every point of a rendering
  of every sequence that a run records.
-/

namespace Terrain

/-! ## Layers and key points -/

namespace NoiseLayers

def InRange (table : NoiseLayers) : Prop := ∀ layer ∈ table.layers, IsHeight layer.2

theorem mem_insertSorted {waveLength : Extent} {amplitude : Height} {layer : Extent × Height} :
    ∀ {layers : List (Extent × Height)}, layer ∈ insertSorted waveLength amplitude layers →
      layer = (waveLength, amplitude) ∨ layer ∈ layers
  | [], member => .inl (List.mem_singleton.1 member)
  | (other, height) :: rest, member => by
    unfold insertSorted at member
    split at member
    · exact List.mem_cons.1 member
    split at member
    · exact (List.mem_cons.1 member).imp_right (List.mem_cons_of_mem _)
    · rcases List.mem_cons.1 member with rfl | later
      · exact .inr List.mem_cons_self
      · exact (mem_insertSorted later).imp_right (List.mem_cons_of_mem _)

theorem InRange.insert {table : NoiseLayers} (inRange : table.InRange) (waveLength : Extent)
    {amplitude : Height} (isHeight : IsHeight amplitude) : (table.insert waveLength amplitude).InRange := by
  intro layer member
  rcases mem_insertSorted member with rfl | earlier
  · exact isHeight
  · exact inRange layer earlier

/-- Octaves are made as long as the amplitude is not below one. -/
theorem InRange.octaves {table : NoiseLayers} (inRange : table.InRange) (persistence : Float)
    (power : Nat) (amplitude : Float) : (NoiseLayers.octaves persistence amplitude power table).InRange := by
  induction power generalizing amplitude table with
  | zero =>
    unfold NoiseLayers.octaves
    split
    · exact inRange
    case isFalse positive =>
      exact inRange.insert _ (Number.nonnegative_of_not_lt_one positive |>.isHeight_truncateHeight)
  | succ power ih =>
    unfold NoiseLayers.octaves
    split
    · exact inRange
    case isFalse positive =>
      exact ih (inRange.insert _ (Number.nonnegative_of_not_lt_one positive |>.isHeight_truncateHeight)) _

theorem inRange_empty : empty.InRange := nofun

theorem inRange_standard : standard.InRange := inRange_empty.octaves _ _ _

end NoiseLayers

theorem HeightProfile.mem_insertKey {coordinate : Coordinate} {height : Height}
    {key : Coordinate × Height} :
    ∀ {keys : List (Coordinate × Height)}, key ∈ insertKey coordinate height keys →
      key = (coordinate, height) ∨ key ∈ keys
  | [], member => .inl (List.mem_singleton.1 member)
  | (other, value) :: rest, member => by
    unfold insertKey at member
    split at member
    · exact List.mem_cons.1 member
    split at member
    · exact (List.mem_cons.1 member).imp_right (List.mem_cons_of_mem _)
    · rcases List.mem_cons.1 member with rfl | later
      · exact .inr List.mem_cons_self
      · exact (mem_insertKey later).imp_right (List.mem_cons_of_mem _)

/-- Sorting adds no key points. -/
theorem HeightProfile.mem_foldl_insertKey {key : Coordinate × Height}
    {points keys : List (Coordinate × Height)}
    (member : key ∈ points.foldl (fun keys point => insertKey point.1 point.2 keys) keys) :
    key ∈ points ∨ key ∈ keys := by
  induction points generalizing keys with
  | nil => exact .inr member
  | cons point points ih =>
    rcases ih member with later | first
    · exact .inl (List.mem_cons_of_mem _ later)
    · rcases mem_insertKey first with rfl | earlier
      · exact .inl List.mem_cons_self
      · exact .inr earlier

/-! ## Readers -/

section Queries

variable {α β : Type} {program : Program} {machine : Machine} {query : Query α} {next : α → Query β}
  {holds : α → Prop} {holds' : β → Prop}

theorem Query.gives_bind (first : Gives (query program machine) holds)
    (second : ∀ value, holds value → Gives (next value program machine) holds') :
    Gives ((query >>= next) program machine) holds' :=
  Gives.bind first second

theorem Query.gives_seq (second : ∀ value, Gives (next value program machine) holds') :
    Gives ((query >>= next) program machine) holds' :=
  Gives.seq second

theorem Query.gives_pure {value : α} (true : holds value) :
    Gives ((pure value : Query α) program machine) holds :=
  Gives.pure true

theorem Query.gives_refuse (call : NativeCall) (code : Code) (text : String) :
    Gives ((call.refuse code text : Query α) program machine) holds :=
  nofun

theorem Query.gives_ite {condition : Prop} [Decidable condition] {other : Query α}
    (first : Gives (query program machine) holds) (second : Gives (other program machine) holds) :
    Gives ((if condition then query else other) program machine) holds := by
  split
  · exact first
  · exact second

theorem Query.gives_mapM {f : β → Query α} {items : List β}
    (each : ∀ item, Gives (f item program machine) holds) :
    Gives (items.mapM f program machine) fun values => ∀ value ∈ values, holds value := by
  induction items with
  | nil =>
    rw [List.mapM_nil]
    exact gives_pure nofun
  | cons item items ih =>
    rw [List.mapM_cons]
    refine gives_bind (each item) fun value kept => gives_bind ih fun values all => gives_pure ?_
    exact List.forall_mem_cons.2 ⟨kept, all⟩

end Queries

namespace NativeCall

open Query

variable {call : NativeCall} {program : Program} {machine : Machine}

theorem gives_toHeight (value : Float) : Gives (call.toHeight value program machine) IsHeight := by
  unfold toHeight
  cases converted : numberToHeight? value with
  | none => exact gives_refuse _ _ _
  | some height => exact gives_pure (Number.isHeight_of_numberToHeight? converted)

theorem gives_height (index : Nat) : Gives (call.height index program machine) IsHeight :=
  gives_seq gives_toHeight

theorem gives_optional {default : Height} (isHeight : IsHeight default) (index : Nat) :
    Gives (call.optional index default call.height program machine) IsHeight :=
  gives_ite (gives_height index) (gives_pure isHeight)

theorem gives_heightRange (first : Nat) : Gives (call.heightRange first program machine) fun range =>
    IsHeight range.1 ∧ IsHeight range.2 := by
  refine gives_bind (gives_height _) fun low isLow => gives_bind (gives_height _) fun high isHigh => ?_
  exact gives_ite (gives_refuse _ _ _) (gives_pure ⟨isLow, isHigh⟩)

/-- An amplitude is a number in `[-1, 1]` before it is required to be positive. -/
theorem gives_wave (waveLength amplitude : Float) :
    Gives (call.wave waveLength amplitude program machine) fun layer => IsHeight layer.2 := by
  refine gives_ite (gives_refuse _ _ _) ?_
  cases converted : numberToHeight? amplitude with
  | none => exact gives_refuse _ _ _
  | some height =>
    have isHeight := Number.isHeight_of_numberToHeight? converted
    exact gives_ite (gives_pure isHeight) (gives_refuse _ _ _)

theorem gives_layer : Gives (call.layer program machine) fun layer => IsHeight layer.2 :=
  gives_seq fun _ => gives_seq fun _ => gives_wave _ _

theorem gives_tableEntry (entry : Entry) :
    Gives (call.tableEntry entry program machine) fun layer => IsHeight layer.2 := by
  refine gives_seq fun key => ?_
  split <;> refine gives_seq fun waveLength => gives_seq fun value => ?_
  all_goals split <;> exact gives_seq fun amplitude => gives_wave _ _

theorem gives_noiseTable (index : Nat) :
    Gives (call.noiseTable index program machine) NoiseLayers.InRange := by
  have layered (layers : List (Extent × Height)) (heights : ∀ layer ∈ layers, IsHeight layer.2)
      (table : NoiseLayers) (inRange : table.InRange) : NoiseLayers.InRange
        (layers.foldl (fun table layer => table.insert layer.1 layer.2) table) := by
    induction layers generalizing table with
    | nil => exact inRange
    | cons layer layers ih =>
      obtain ⟨isHeight, others⟩ := List.forall_mem_cons.1 heights
      exact ih others _ (inRange.insert _ isHeight)
  unfold noiseTable
  split
  · exact gives_pure NoiseLayers.inRange_standard
  · refine gives_seq fun value => ?_
    split
    · exact gives_pure NoiseLayers.inRange_standard
    · refine gives_seq fun items => gives_bind (gives_mapM gives_tableEntry) fun layers heights => ?_
      exact gives_pure (layered layers heights .empty NoiseLayers.inRange_empty)

end NativeCall

/-! ## Actions -/

namespace Native

open Query NativeCall

variable {call : NativeCall} {program : Program} {machine : Machine}

/-- No height, one, two or three. -/
theorem heights_nil : ∀ height ∈ ([] : List Height), IsHeight height := nofun

theorem heights_one {height : Height} (isHeight : IsHeight height) :
    ∀ other ∈ [height], IsHeight other := by
  simpa using isHeight

theorem heights_two {low high : Height} (isLow : IsHeight low) (isHigh : IsHeight high) :
    ∀ other ∈ [low, high], IsHeight other :=
  List.forall_mem_cons.2 ⟨isLow, heights_one isHigh⟩

theorem heights_three {low high height : Height} (range : IsHeight low ∧ IsHeight high)
    (isHeight : IsHeight height) : ∀ other ∈ [low, high, height], IsHeight other :=
  List.forall_mem_cons.2 ⟨range.1, heights_two range.2 isHeight⟩

-- every function first checks the number of its arguments and then reads them one after the other

theorem gives_mapMaker {query : Query (MapMaker × List Slot)} (found : mapMaker? call = some query) :
    Gives (query program machine) fun answer => ∀ height ∈ answer.1.heights, IsHeight height := by
  unfold mapMaker? at found
  split at found <;> cases found <;> refine gives_seq fun _ => ?_
  case h_1 =>
    exact gives_bind (gives_optional isHeight_zero _) fun _ isHeight => gives_pure (heights_one isHeight)
  case h_2 =>
    refine gives_bind (gives_noiseTable _) fun table inRange => gives_seq fun _ => gives_pure ?_
    exact List.forall_mem_map.2 inRange
  case h_3 | h_4 =>
    refine gives_seq fun _ => gives_seq fun _ => gives_bind (gives_height _) fun low isLow => ?_
    exact gives_bind (gives_height _) fun high isHigh => gives_pure (heights_two isLow isHigh)
  case h_5 => exact gives_seq fun _ => gives_seq fun _ => gives_pure heights_nil
  case h_6 => exact gives_seq fun _ => gives_pure heights_nil

theorem gives_mapAddMasked : Gives (mapAddMasked call program machine) fun answer =>
    ∀ height ∈ answer.1.heights, IsHeight height := by
  refine gives_seq fun _ => gives_seq fun mask => gives_seq fun value => ?_
  split
  · exact gives_bind (gives_height _) fun _ isHeight => gives_pure (heights_one isHeight)
  · exact gives_seq fun _ => gives_pure heights_nil

theorem gives_mapTransform : Gives (mapTransform call program machine) fun answer =>
    ∀ height ∈ answer.1.heights, IsHeight height := by
  refine gives_seq fun _ => gives_seq fun _ => gives_seq fun _ => gives_seq fun _ => ?_
  exact gives_seq fun _ => gives_ite (gives_pure heights_nil) (gives_refuse _ _ _)

theorem gives_mapEdit {query : Query (MapEdit × List Slot)} (found : mapEdit? call = some query) :
    Gives (query program machine) fun answer => ∀ height ∈ answer.1.heights, IsHeight height := by
  unfold mapEdit? at found
  split at found <;> cases found
  case h_4 => exact gives_mapAddMasked
  case h_25 => exact gives_mapTransform
  all_goals refine gives_seq fun _ => ?_
  case h_1 | h_16 => exact gives_pure heights_nil
  case h_2 => exact gives_bind (gives_height _) fun _ isHeight => gives_pure (heights_one isHeight)
  case h_3 | h_5 | h_8 | h_11 | h_15 | h_17 | h_18 | h_19 | h_27 =>
    exact gives_seq fun _ => gives_pure heights_nil
  case h_6 =>
    exact gives_bind (gives_heightRange _) fun _ range => gives_pure (heights_two range.1 range.2)
  case h_7 | h_21 | h_22 => exact gives_seq fun _ => gives_seq fun _ => gives_pure heights_nil
  case h_9 | h_23 =>
    refine gives_seq fun _ => gives_bind (gives_optional isHeight_zero _) fun _ isHeight => ?_
    exact gives_pure (heights_one isHeight)
  case h_10 =>
    refine gives_bind (gives_heightRange _) fun _ range => ?_
    refine gives_bind (gives_optional isHeight_zero _) fun _ isHeight => ?_
    exact gives_pure (heights_three range isHeight)
  case h_12 | h_24 =>
    exact gives_seq fun _ => gives_seq fun _ => gives_seq fun _ => gives_pure heights_nil
  case h_13 =>
    refine gives_seq fun _ => gives_seq fun _ => gives_bind (gives_height _) fun _ isHeight => ?_
    exact gives_pure (heights_one isHeight)
  case h_14 =>
    refine gives_seq fun _ => gives_bind (gives_height _) fun _ isHeight => ?_
    exact gives_pure (heights_one isHeight)
  case h_20 =>
    refine gives_bind gives_layer fun layer isHeight => gives_seq fun _ => gives_seq fun _ => ?_
    exact gives_pure (heights_one isHeight)
  case h_26 =>
    refine gives_seq fun _ => gives_seq fun _ => ?_
    refine gives_bind (gives_optional (by decide) _) fun _ isLow => ?_
    refine gives_bind (gives_optional (by decide) _) fun _ isHigh => ?_
    exact gives_pure (heights_two isLow isHigh)

theorem gives_controlPoint (entry : Entry) :
    Gives (controlPoint call entry program machine) fun key => IsHeight key.2 := by
  refine gives_seq fun key => gives_seq fun value => ?_
  split
  · exact gives_seq fun _ => gives_bind (gives_toHeight _) fun _ isHeight => gives_pure isHeight
  · exact gives_refuse _ _ _

theorem gives_controlPoints :
    Gives (controlPoints call program machine) fun keys => ∀ key ∈ keys, IsHeight key.2 := by
  refine gives_seq fun items => gives_bind (gives_mapM gives_controlPoint) fun points heights => ?_
  refine gives_pure fun key member => heights key ?_
  exact (HeightProfile.mem_foldl_insertKey member).resolve_right List.not_mem_nil

theorem gives_profileMaker {query : Query (ProfileMaker × List Slot)} (found : profileMaker? call = some query) :
    Gives (query program machine) fun answer => ∀ height ∈ answer.1.heights, IsHeight height := by
  unfold profileMaker? at found
  split at found <;> cases found <;> refine gives_seq fun _ => ?_
  case h_1 =>
    exact gives_bind (gives_optional isHeight_zero _) fun _ isHeight => gives_pure (heights_one isHeight)
  case h_2 =>
    refine gives_seq fun _ => gives_seq fun _ => gives_bind (gives_height _) fun low isLow => ?_
    exact gives_bind (gives_height _) fun high isHigh => gives_pure (heights_two isLow isHigh)
  case h_3 =>
    exact gives_bind gives_controlPoints fun keys heights => gives_pure (List.forall_mem_map.2 heights)
  case h_4 =>
    refine gives_bind (gives_noiseTable _) fun table inRange => gives_seq fun _ => gives_pure ?_
    exact List.forall_mem_map.2 inRange
  case h_5 => exact gives_seq fun _ => gives_seq fun _ => gives_seq fun _ => gives_pure heights_nil
  case h_6 => exact gives_seq fun _ => gives_pure heights_nil

theorem gives_profileAddMasked : Gives (profileAddMasked call program machine) fun answer =>
    ∀ height ∈ answer.1.heights, IsHeight height := by
  refine gives_seq fun _ => gives_seq fun mask => gives_seq fun value => ?_
  split
  · exact gives_bind (gives_height _) fun _ isHeight => gives_pure (heights_one isHeight)
  · exact gives_seq fun _ => gives_pure heights_nil

theorem gives_profileEdit {query : Query (ProfileEdit × List Slot)} (found : profileEdit? call = some query) :
    Gives (query program machine) fun answer => ∀ height ∈ answer.1.heights, IsHeight height := by
  unfold profileEdit? at found
  split at found <;> cases found
  case h_4 => exact gives_profileAddMasked
  all_goals refine gives_seq fun _ => ?_
  case h_1 | h_11 | h_13 => exact gives_pure heights_nil
  case h_2 => exact gives_bind (gives_height _) fun _ isHeight => gives_pure (heights_one isHeight)
  case h_3 | h_5 | h_12 | h_14 | h_15 | h_16 | h_19 | h_21 =>
    exact gives_seq fun _ => gives_pure heights_nil
  case h_6 =>
    exact gives_bind (gives_heightRange _) fun _ range => gives_pure (heights_two range.1 range.2)
  case h_7 | h_18 => exact gives_seq fun _ => gives_seq fun _ => gives_pure heights_nil
  case h_8 | h_20 =>
    refine gives_seq fun _ => gives_bind (gives_optional isHeight_zero _) fun _ isHeight => ?_
    exact gives_pure (heights_one isHeight)
  case h_9 =>
    refine gives_bind (gives_heightRange _) fun _ range => ?_
    refine gives_bind (gives_optional isHeight_zero _) fun _ isHeight => ?_
    exact gives_pure (heights_three range isHeight)
  case h_10 =>
    refine gives_seq fun _ => gives_bind (gives_height _) fun _ isHeight => ?_
    exact gives_pure (heights_one isHeight)
  case h_17 =>
    refine gives_bind gives_layer fun layer isHeight => gives_seq fun _ => ?_
    exact gives_pure (heights_one isHeight)

/-- What is recorded carries heights only. -/
theorem Recordable.inRange {action : Action} (recordable : Recordable program action) :
    action.InRange := by
  cases recordable with
  | makeMap found answered => exact gives_mapMaker found _ answered
  | editMap found answered => exact gives_mapEdit found _ answered
  | yield name => exact heights_nil
  | makeProfile found answered => exact gives_profileMaker found _ answered
  | editProfile found answered => exact gives_profileEdit found _ answered

end Native

/-! ## Runs and renderings -/

namespace Machine

/-- Whatever a run has recorded, and however far its rendering has come: every sample of every map and
profile in the table, and of every map in the gallery, is a height. -/
theorem rendered_samples_are_heights {program : Program} {machine : Machine} {memoryLimit : Nat}
    {renderer : Renderer} (reached : Reachable program machine)
    (rendering : Renderer.Reached machine.sequence memoryLimit renderer) :
    (∀ slot map, renderer.table.get? slot = some (.map map) →
        ∀ height ∈ map.samples, heightMin ≤ height ∧ height ≤ heightMax) ∧
      (∀ slot profile, renderer.table.get? slot = some (.profile profile) →
        ∀ height ∈ profile.samples, heightMin ≤ height ∧ height ≤ heightMax) ∧
      ∀ name map, renderer.gallery.get? name = some map →
        ∀ height ∈ map.samples, heightMin ≤ height ∧ height ≤ heightMax := by
  have carried : ∀ step ∈ machine.sequence.steps, step.action.InRange := fun step member =>
    (reached.recordable step member).inRange
  obtain ⟨table, gallery⟩ := rendering.inRange reached.sound.recorded carried
  exact ⟨fun slot map found => table slot _ found, fun slot profile found => table slot _ found,
    gallery⟩

/-- A program that yields the lowest plain there is, turned upside down. -/
def cliff : Program where
  script := { idle.script with
    main := [(.start, .loadNumber (-1.0)), (.start, .loadVariable "HeightMap"),
      (.start, .callMember "Flat" 1), (.start, .callMember "Invert" 0), (.start, .yieldMain)] }
  parameters := { idle.parameters with renderWidth := 2, renderHeight := 1 }
  limits := {}

/-- The plain that is yielded is at the upper end of the range. -/
theorem cliff_samples_are_heights : ∃ machine renderer map, Reachable cliff machine ∧
    Renderer.Reached machine.sequence 1000 renderer ∧ renderer.gallery.get? "main" = some map ∧
    map.samples = #[32767, 32767] ∧ ∀ height ∈ map.samples, heightMin ≤ height ∧ height ≤ heightMax := by
  have ended : ∃ machine, Reachable cliff machine ∧
      (Renderer.leaves (Renderer.plan (.start machine.sequence 1000))).2 = true ∧
      (∀ steps < 3, (Renderer.leaves (Renderer.step (.played machine.sequence 1000 steps))).2 = true) ∧
      ((Renderer.played machine.sequence 1000 3).gallery.get? "main").any fun map =>
        map.samples = #[32767, 32767] :=
    exists_reachable 5 (by decide +kernel)
  obtain ⟨machine, reached, planned, played, shown⟩ := ended
  obtain ⟨map, found, samples⟩ := (Option.any_eq_true _ _).1 shown
  have rendering := Renderer.reached_played planned played
  have inRange := (rendered_samples_are_heights reached rendering).2.2 "main" map found
  exact ⟨machine, _, map, reached, rendering, found, of_decide_eq_true samples, inRange⟩

end Machine

end Terrain
