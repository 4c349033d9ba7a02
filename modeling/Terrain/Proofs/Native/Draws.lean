import Terrain.Proofs.Native.Comparisons
import Terrain.Proofs.Native.Heights
import Terrain.Proofs.Number.Conversions

/-!
# Draws between two bounds

A draw reduces 64 random bits into bounds that are at most 63 bits apart, and then no figure on the way
leaves the type it is computed in. Noise draws between an amplitude and its opposite, which are heights.
The bounds of `Random` are floats of any size, and only their saturated whole parts are drawn between.

* `DrawFits` — the figures of a draw are in range, and so is its result.
* `Machine.Reachable.drawFits_noise` — all noise that a run records draws like that.
* `Native.random_decided` — the outcome of `Random` for all bounds that it accepts.
-/

namespace Terrain

/-! ## Figures -/

/-- The figures of a draw: the difference of the bounds is one of 63 bits, the span one of 64 bits that
is not zero, the remainder one of 63 bits, and their sum with the lower bound lies between the bounds. -/
structure DrawFits (bits : UInt64) (low high : Int) : Prop where
  difference : 0 ≤ high - low ∧ high - low ≤ wideMax
  span : 0 < high - low + 1 ∧ high - low + 1 < 2 ^ 64
  rest : ((bits.toNat % (high - low + 1).toNat : Nat) : Int) ≤ wideMax
  sum : low ≤ pick bits low high ∧ pick bits low high ≤ high
  wide : wideMin ≤ pick bits low high ∧ pick bits low high ≤ wideMax

theorem drawFits {low high : Int} (bits : UInt64) (ordered : low ≤ high) (near : high - low ≤ wideMax)
    (least : wideMin ≤ low) (most : high ≤ wideMax) : DrawFits bits low high := by
  have below := Nat.mod_lt bits.toNat (show 0 < (high - low + 1).toNat by omega)
  have between := pick_mem bits ordered
  have limit : wideMax = 2 ^ 63 - 1 := rfl
  refine ⟨⟨by omega, near⟩, ⟨by omega, by omega⟩, by omega, between, ?_, ?_⟩
  · exact least.trans between.1
  · exact between.2.trans most

/-! ## Noise -/

/-- Amplitudes of the noise an action draws. -/
def Action.amplitudes : Action → List Height
  | .makeMap (.noise table _) | .makeProfile (.noise table _) => table.layers.map (·.2)
  | .editMap (.noiseLayer _ amplitude ..) | .editProfile (.noiseLayer _ amplitude _) => [amplitude]
  | _ => []

theorem Action.mem_heights_of_mem_amplitudes {action : Action} {amplitude : Height}
    (member : amplitude ∈ action.amplitudes) : amplitude ∈ action.heights := by
  unfold amplitudes at member
  split at member
  all_goals first | exact member | cases member

namespace NoiseLayers

/-- No amplitude is zero or less. -/
def Positive (table : NoiseLayers) : Prop := ∀ layer ∈ table.layers, 0 < layer.2

theorem Positive.insert {table : NoiseLayers} (positive : table.Positive) (waveLength : Extent)
    {amplitude : Height} (above : 0 < amplitude) : (table.insert waveLength amplitude).Positive := by
  intro layer member
  rcases mem_insertSorted member with rfl | earlier
  · exact above
  · exact positive layer earlier

theorem positive_standard : standard.Positive := by
  have checked : standard.layers.all (fun layer => decide (0 < layer.2)) = true := by decide +kernel
  exact fun layer member => of_decide_eq_true (List.all_eq_true.1 checked layer member)

end NoiseLayers

namespace NativeCall

open Query

variable {call : NativeCall} {program : Program} {machine : Machine}

/-- An amplitude that is given is required to be positive. -/
theorem gives_wave_positive (waveLength amplitude : Float) :
    Gives (call.wave waveLength amplitude program machine) fun layer => 0 < layer.2 := by
  refine gives_ite (gives_refuse _ _ _) ?_
  cases numberToHeight? amplitude with
  | none => exact gives_refuse _ _ _
  | some height =>
    dsimp only
    split
    case isTrue positive => exact gives_pure positive
    case isFalse => exact gives_refuse _ _ _

theorem gives_layer_positive : Gives (call.layer program machine) fun layer => 0 < layer.2 :=
  gives_seq fun _ => gives_seq fun _ => gives_wave_positive _ _

theorem gives_tableEntry_positive (entry : Entry) :
    Gives (call.tableEntry entry program machine) fun layer => 0 < layer.2 := by
  refine gives_seq fun key => ?_
  split <;> refine gives_seq fun waveLength => gives_seq fun value => ?_
  all_goals split <;> exact gives_seq fun amplitude => gives_wave_positive _ _

theorem gives_noiseTable_positive (index : Nat) :
    Gives (call.noiseTable index program machine) NoiseLayers.Positive := by
  have layered (layers : List (Extent × Height)) (above : ∀ layer ∈ layers, 0 < layer.2)
      (table : NoiseLayers) (positive : table.Positive) : NoiseLayers.Positive
        (layers.foldl (fun table layer => table.insert layer.1 layer.2) table) := by
    induction layers generalizing table with
    | nil => exact positive
    | cons layer layers ih =>
      obtain ⟨first, others⟩ := List.forall_mem_cons.1 above
      exact ih others _ (positive.insert _ first)
  unfold noiseTable
  split
  · exact gives_pure NoiseLayers.positive_standard
  · refine gives_seq fun value => ?_
    split
    · exact gives_pure NoiseLayers.positive_standard
    · refine gives_seq fun items => gives_bind (gives_mapM gives_tableEntry_positive) fun layers above => ?_
      exact gives_pure (layered layers above .empty nofun)

end NativeCall

namespace Native

open Query NativeCall

variable {call : NativeCall} {program : Program} {machine : Machine}

-- only the functions of noise read amplitudes; what the others answer has none

theorem gives_mapMaker_positive {query : Query (MapMaker × List Slot)} (found : mapMaker? call = some query) :
    Gives (query program machine) fun answer =>
      ∀ amplitude ∈ (Action.makeMap answer.1).amplitudes, 0 < amplitude := by
  unfold mapMaker? at found
  split at found <;> cases found
  case h_2 =>
    refine gives_seq fun _ => gives_bind (gives_noiseTable_positive _) fun table positive => ?_
    exact gives_seq fun _ => gives_pure (List.forall_mem_map.2 positive)
  all_goals repeat' first | exact gives_pure nofun | refine gives_seq fun _ => ?_

theorem gives_mapEdit_positive {query : Query (MapEdit × List Slot)} (found : mapEdit? call = some query) :
    Gives (query program machine) fun answer =>
      ∀ amplitude ∈ (Action.editMap answer.1).amplitudes, 0 < amplitude := by
  unfold mapEdit? at found
  split at found <;> cases found
  case h_4 =>
    refine gives_seq fun _ => gives_seq fun _ => gives_seq fun value => ?_
    split <;> exact gives_seq fun _ => gives_pure nofun
  case h_20 =>
    refine gives_seq fun _ => gives_bind gives_layer_positive fun layer positive => ?_
    exact gives_seq fun _ => gives_seq fun _ => gives_pure (by simpa [Action.amplitudes] using positive)
  case h_25 =>
    refine gives_seq fun _ => gives_seq fun _ => gives_seq fun _ => gives_seq fun _ => gives_seq fun _ => ?_
    exact gives_ite (gives_pure nofun) (gives_refuse _ _ _)
  all_goals repeat' first | exact gives_pure nofun | refine gives_seq fun _ => ?_

theorem gives_profileMaker_positive {query : Query (ProfileMaker × List Slot)}
    (found : profileMaker? call = some query) : Gives (query program machine) fun answer =>
      ∀ amplitude ∈ (Action.makeProfile answer.1).amplitudes, 0 < amplitude := by
  unfold profileMaker? at found
  split at found <;> cases found
  case h_4 =>
    refine gives_seq fun _ => gives_bind (gives_noiseTable_positive _) fun table positive => ?_
    exact gives_seq fun _ => gives_pure (List.forall_mem_map.2 positive)
  all_goals repeat' first | exact gives_pure nofun | refine gives_seq fun _ => ?_

theorem gives_profileEdit_positive {query : Query (ProfileEdit × List Slot)} (found : profileEdit? call = some query) :
    Gives (query program machine) fun answer =>
      ∀ amplitude ∈ (Action.editProfile answer.1).amplitudes, 0 < amplitude := by
  unfold profileEdit? at found
  split at found <;> cases found
  case h_4 =>
    refine gives_seq fun _ => gives_seq fun _ => gives_seq fun value => ?_
    split <;> exact gives_seq fun _ => gives_pure nofun
  case h_17 =>
    refine gives_seq fun _ => gives_bind gives_layer_positive fun layer positive => ?_
    exact gives_seq fun _ => gives_pure (by simpa [Action.amplitudes] using positive)
  all_goals repeat' first | exact gives_pure nofun | refine gives_seq fun _ => ?_

/-- Whatever noise is recorded, its amplitudes are positive. -/
theorem Recordable.amplitudes_pos {action : Action} (recordable : Recordable program action) :
    ∀ amplitude ∈ action.amplitudes, 0 < amplitude := by
  cases recordable with
  | makeMap found answered => exact gives_mapMaker_positive found _ answered
  | editMap found answered => exact gives_mapEdit_positive found _ answered
  | yield name => exact nofun
  | makeProfile found answered => exact gives_profileMaker_positive found _ answered
  | editProfile found answered => exact gives_profileEdit_positive found _ answered

end Native

/-- The noise of every step that a run records draws between heights, at every point. -/
theorem Machine.Reachable.drawFits_noise {program : Program} {machine : Machine}
    (reached : Reachable program machine) {step : Step} (member : step ∈ machine.sequence.steps)
    {amplitude : Height} (draws : amplitude ∈ step.action.amplitudes) (lattice : Lattice)
    (point : Point) : DrawFits (lattice.wordAt point) (-amplitude) amplitude := by
  have recordable := reached.recordable step member
  have positive : (0 : Int) < amplitude := recordable.amplitudes_pos amplitude draws
  have isHeight := recordable.inRange amplitude (Action.mem_heights_of_mem_amplitudes draws)
  rw [Number.isHeight_iff] at isHeight
  have least : wideMin = -2 ^ 63 := rfl
  have most : wideMax = 2 ^ 63 - 1 := rfl
  exact drawFits _ (by omega) (by omega) (by omega) (by omega)

/-! ## Random numbers -/

def wideBound (bound : Float) : Int := Number.truncateTo wideMin wideMax bound

theorem wideBound_mem (bound : Float) : wideMin ≤ wideBound bound ∧ wideBound bound ≤ wideMax :=
  Number.narrowBy_mem _ _ _ _ (by decide) (by decide)

theorem wideBound_eq {bound : Float} {n : Int} (isValue : Number.IsValue bound n) :
    wideBound bound = Number.clampInt wideMin wideMax n := by
  rw [wideBound, isValue.truncateTo, Number.truncated_intCast]

theorem isValue_wideTop : Number.IsValue 9223372036854775808.0 ((2 ^ 63 : ℤ) : ℚ) :=
  ⟨false, 2 ^ 52, 11, by decide +kernel, by norm_num [Number.signed]⟩

theorem isValue_wideBottom : Number.IsValue (-9223372036854775808.0) ((-2 ^ 63 : ℤ) : ℚ) :=
  ⟨true, 2 ^ 52, 11, by decide +kernel, by norm_num [Number.signed]⟩

/-- The greatest number of 64 bits is rounded up. -/
theorem isValue_ofInt_wideMax : Number.IsValue (Float.ofInt wideMax) ((2 ^ 63 : ℤ) : ℚ) :=
  ⟨false, 2 ^ 52, 11, by decide +kernel, by norm_num [Number.signed]⟩

theorem log2_natAbs_le {value : Int} (least : wideMin ≤ value) (most : value ≤ wideMax) :
    value.natAbs.log2 ≤ 1022 := by
  have short : value.natAbs < 2 ^ 64 := by
    unfold wideMin at least
    unfold wideMax at most
    omega
  by_cases zero : value.natAbs = 0
  · rw [zero, Nat.log2_zero]
    omega
  · have less := (Nat.log2_lt zero).2 short
    omega

section Bounds

variable {low high : Float} (whole : Number.isWhole low) (whole' : Number.isWhole high)
  (ordered : low ≤ high)

include whole whole' ordered

theorem wideBound_mono : wideBound low ≤ wideBound high := by
  obtain ⟨a, isLow⟩ := Number.isWhole_iff.1 whole
  obtain ⟨b, isHigh⟩ := Number.isWhole_iff.1 whole'
  have ordered : a ≤ b := by exact_mod_cast (isLow.le_iff isHigh).1 ordered
  rw [wideBound_eq isLow, wideBound_eq isHigh]
  unfold Number.clampInt wideMin wideMax
  split_ifs <;> omega

/-- A draw between saturated bounds lies between the bounds themselves, unless the whole range is beyond
the numbers of 64 bits. The greatest of these is rounded up to the next power of two. -/
theorem drawn_inside_iff {value : Int} (above : wideBound low ≤ value) (below : value ≤ wideBound high) :
    Number.isWhole (Float.ofInt value) ∧
      (low ≤ Float.ofInt value ∧ Float.ofInt value ≤ high ↔
        low ≤ 9223372036854775808.0 ∧ -9223372036854775808.0 ≤ high) := by
  obtain ⟨a, isLow⟩ := Number.isWhole_iff.1 whole
  obtain ⟨b, isHigh⟩ := Number.isWhole_iff.1 whole'
  have ordered : a ≤ b := by exact_mod_cast (isLow.le_iff isHigh).1 ordered
  have least := (wideBound_mem low).1
  have most := (wideBound_mem high).2
  have digits := log2_natAbs_le (least.trans above) (below.trans most)
  obtain ⟨m, isValue, order⟩ := Number.exists_isValue_ofInt digits
  refine ⟨Number.isWhole_iff.2 ⟨m, isValue⟩, ?_⟩
  rw [isLow.le_iff isValue, isValue.le_iff isHigh, isLow.le_iff isValue_wideTop,
    isValue_wideBottom.le_iff isHigh]
  simp only [Int.cast_le]
  -- the rounded value keeps its order to both bounds and to both ends of the range
  have toLow := (order low a isLow).1
  have toHigh := (order high b isHigh).2
  have toTop := (order _ _ isValue_wideTop).2
  have toBottom := (order _ _ isValue_wideBottom).1
  have greatest (last : value = wideMax) : m = 2 ^ 63 := by
    exact_mod_cast isValue.unique (last ▸ isValue_ofInt_wideMax)
  simp only [Int.cast_le] at toLow toHigh toTop toBottom
  rw [wideBound_eq isLow] at above
  rw [wideBound_eq isHigh] at below
  unfold Number.clampInt wideMin wideMax at above below
  unfold wideMax at greatest
  clear digits order
  split_ifs at above below <;> omega

end Bounds

namespace Native

open Machine

variable {program : Program} {machine : Machine} {location : Location} {first second : ObjectId}
  {low high : Float}

def randomCall (location : Location) (first second : ObjectId) : NativeCall :=
  ⟨location, "Random", [first, second]⟩

/-- The call takes the next bits and answers a number, which is a new object. -/
def Draws (program : Program) (machine : Machine) (location : Location) (first second : ObjectId)
    (result : Float) : Prop :=
  callGlobal (randomCall location first second) program machine =
    .ok machine.heap.cells.size { machine with
      random := machine.random.nextWord.2
      heap := machine.heap.adding (.number result) }

def BreaksOff (program : Program) (machine : Machine) (location : Location) (first second : ObjectId) :
    Prop :=
  callGlobal (randomCall location first second) program machine =
    .error (.breach .overflow) { machine with random := machine.random.nextWord.2 }

theorem number_eq_ok {call : NativeCall} {index : Nat} {id : ObjectId} {x : Float}
    (argument : call.object index program machine = .ok id)
    (found : machine.heap.value? id = some (.number x)) :
    call.number index program machine = .ok x := by
  have value : call.value index program machine = .ok (.number x) := by
    rw [NativeCall.value, Query.bind_of_eq_ok argument, Query.value_eq_ok found]
  rw [NativeCall.number, Query.bind_of_eq_ok value]
  rfl

section Bounds

variable (found : machine.heap.value? first = some (.number low))
  (found' : machine.heap.value? second = some (.number high)) (whole : Number.isWhole low)
  (whole' : Number.isWhole high) (ordered : low ≤ high)

include found found' whole whole' ordered

theorem randomBounds_eq_ok : randomBounds (randomCall location first second) program machine =
    .ok (some (wideBound low, wideBound high)) := by
  set call := randomCall location first second
  obtain ⟨p, isValue⟩ := Number.isWhole_iff.1 whole
  obtain ⟨q, isValue'⟩ := Number.isWhole_iff.1 whole'
  have accepted : (!Number.isWhole low || !Number.isWhole high || decide (high < low)) = false := by
    have order := ((isValue'.lt_iff isValue).trans not_le.symm).not.2
      (not_not.2 ((isValue.le_iff isValue').1 ordered))
    simp [whole, whole', order]
  have atMost : call.expect 0 2 program machine = .ok () := rfl
  have both : call.expect 2 2 program machine = .ok () := rfl
  have some : ¬call.count = 0 := Nat.succ_ne_zero 1
  have left : call.number 0 program machine = .ok low := number_eq_ok rfl found
  have right : call.number 1 program machine = .ok high := number_eq_ok rfl found'
  rw [randomBounds, Query.bind_of_eq_ok atMost, if_neg some, Query.bind_of_eq_ok both,
    Query.bind_of_eq_ok left, Query.bind_of_eq_ok right, accepted]
  rfl

theorem callGlobal_random : callGlobal (randomCall location first second) program machine =
    match pickChecked machine.random.nextWord.1 (wideBound low) (wideBound high) with
    | .ok value => .ok machine.heap.cells.size { machine with
        random := machine.random.nextWord.2
        heap := machine.heap.adding (.number (Float.ofInt value)) }
    | .error breach => .error (.breach breach) { machine with random := machine.random.nextWord.2 } := by
  have bounds := @randomBounds_eq_ok program machine location first second low high found found' whole
    whole' ordered
  have looked : (get : MachineM Machine) program machine = .ok machine machine := rfl
  have next : machine.random.nextInt (wideBound low) (wideBound high) =
      (pickChecked machine.random.nextWord.1 (wideBound low) (wideBound high),
        machine.random.nextWord.2) := rfl
  change random (randomCall location first second) program machine = _
  rw [random, run_inspect_bind bounds]
  dsimp only
  rw [run_bind_of_eq_ok looked, next]
  cases pickChecked machine.random.nextWord.1 (wideBound low) (wideBound high) <;> rfl

/-- The outcome of `Random` for two whole numbers in order, of any size, and in any state of the generator.
Their whole parts are saturated into 64 bits first. If these are no more than 63 bits apart, every figure
of the draw is in range, and the call answers a whole number; this lies between the bounds unless both
bounds are beyond the range of 64 bits on one side. If they are further apart, the call breaks off. All
noise that a run records draws between heights, with every figure in range. -/
theorem random_decided (program : Program) (location : Location) :
    (wideBound high - wideBound low ≤ wideMax →
      DrawFits machine.random.nextWord.1 (wideBound low) (wideBound high) ∧
      ∃ result, Draws program machine location first second result ∧ Number.isWhole result ∧
        (low ≤ result ∧ result ≤ high ↔
          low ≤ 9223372036854775808.0 ∧ -9223372036854775808.0 ≤ high)) ∧
    (wideMax < wideBound high - wideBound low → BreaksOff program machine location first second) ∧
    ∀ program machine, Reachable program machine → ∀ step ∈ machine.sequence.steps,
      ∀ amplitude ∈ step.action.amplitudes, ∀ (lattice : Lattice) (point : Point),
        DrawFits (lattice.wordAt point) (-amplitude) amplitude ∧
          -amplitude ≤ lattice.intAt point (-amplitude) amplitude ∧
          lattice.intAt point (-amplitude) amplitude ≤ amplitude := by
  have run := @callGlobal_random program machine location first second low high found found' whole
    whole' ordered
  have inOrder := wideBound_mono whole whole' ordered
  refine ⟨fun near => ?_, fun far => ?_, ?_⟩
  · have fits := drawFits machine.random.nextWord.1 inOrder near (wideBound_mem low).1
      (wideBound_mem high).2
    obtain ⟨isWhole, inside⟩ := drawn_inside_iff whole whole' ordered fits.sum.1 fits.sum.2
    refine ⟨fits, _, ?_, isWhole, inside⟩
    rw [Draws, run, pickChecked, if_neg (not_lt.2 inOrder), if_neg (not_lt.2 near)]
  · rw [BreaksOff, run, pickChecked, if_neg (not_lt.2 inOrder), if_pos far]
  · intro program machine reached step member amplitude draws lattice point
    have fits := reached.drawFits_noise member draws lattice point
    exact ⟨fits, fits.sum⟩

end Bounds

/-- A throw of a die. -/
theorem random_die : ∃ result, Draws Machine.idle (withNumbers 1.0 6.0) default 0 1 result ∧
    Number.isWhole result ∧ 1.0 ≤ result ∧ result ≤ 6.0 := by
  have whole : Number.isWhole 1.0 ∧ Number.isWhole 6.0 := by decide +kernel
  have ordered : (1.0 : Float) ≤ 6.0 := by decide +kernel
  have near : wideBound 6.0 - wideBound 1.0 ≤ wideMax := by decide +kernel
  have within : (1.0 : Float) ≤ 9223372036854775808.0 ∧ -9223372036854775808.0 ≤ (6.0 : Float) := by
    decide +kernel
  obtain ⟨-, result, draws, isWhole, inside⟩ :=
    (@random_decided (withNumbers 1.0 6.0) 0 1 1.0 6.0 rfl rfl whole.1 whole.2 ordered Machine.idle
      default).1 near
  exact ⟨result, draws, isWhole, inside.2 within⟩

/-- A draw from a single number beyond 64 bits is a smaller one, and bounds that are further apart than 63
bits break the call off. -/
theorem random_leaves_bounds :
    Number.isWhole 18446744073709551616.0 ∧
      Draws Machine.idle (withNumbers 18446744073709551616.0 18446744073709551616.0) default 0 1
        9223372036854775808.0 ∧
      (9223372036854775808.0 : Float) < 18446744073709551616.0 ∧
    Number.isWhole (-1.0) ∧ Number.isWhole 9223372036854775808.0 ∧
      (-1.0 : Float) ≤ 9223372036854775808.0 ∧
      BreaksOff Machine.idle (withNumbers (-1.0) 9223372036854775808.0) default 0 1 := by
  have whole : Number.isWhole 18446744073709551616.0 ∧ Number.isWhole (-1.0) ∧
      Number.isWhole 9223372036854775808.0 := by decide +kernel
  have ordered : (18446744073709551616.0 : Float) ≤ 18446744073709551616.0 ∧
      (-1.0 : Float) ≤ 9223372036854775808.0 := by decide +kernel
  have single := @callGlobal_random Machine.idle
    (withNumbers 18446744073709551616.0 18446744073709551616.0) default 0 1 _ _ rfl rfl whole.1 whole.1
    ordered.1
  have distant := @callGlobal_random Machine.idle (withNumbers (-1.0) 9223372036854775808.0) default 0 1
    _ _ rfl rfl whole.2.1 whole.2.2 ordered.2
  have saturated : wideBound 18446744073709551616.0 = wideMax := by decide +kernel
  have lowest : wideBound (-1.0) = -1 := by decide +kernel
  have highest : wideBound 9223372036854775808.0 = wideMax := by decide +kernel
  have only (bits : UInt64) : pickChecked bits wideMax wideMax = .ok wideMax := by
    simp [pickChecked, pick, wideMax, Nat.mod_one]
  have rounded : Float.ofInt wideMax = 9223372036854775808.0 := by decide +kernel
  refine ⟨whole.1, ?_, by decide +kernel, whole.2.1, whole.2.2, ordered.2, ?_⟩
  · rw [Draws, single, saturated, only, ← rounded]
  · rw [BreaksOff, distant, lowest, highest]
    rfl

end Native

end Terrain
