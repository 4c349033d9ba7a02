import Terrain.Proofs.Plan.Kinds
import Terrain.Proofs.Raster.Breaches
import Terrain.Render.Execute

/-!
# Steps and the table of rasters

A step that finds rasters of the kinds it expects in the slots it reads leaves one of its own kind in
its target and every other slot as it was.

* `RasterTable.Holds` — a slot holds a raster of a kind.
* `ArgumentReader.Supplies` — a reader has rasters of a kind for all arguments that an action counts.
* `MapEdit.template`, `ProfileEdit.template` — the shape that an edit leaves.
* `Step.run_of_edits` — an edit reads its arguments as they are before the step, its target among them.
* `Step.fits_run` — what a step does to the table.
* `Step.Changes` — all that a step that ends can do to a table and a gallery.
-/

namespace Terrain

namespace RasterTable

variable {table : RasterTable} {slot other : Slot} {raster : Raster} {kind : RasterKind}

theorem get?_ofSize (size : Nat) : (ofSize size).get? slot = none := by
  unfold get? ofSize
  rw [Array.getElem?_replicate]
  split <;> rfl

theorem get?_set : (table.set slot raster).get? other =
    if other = slot then some raster else table.get? other := by
  unfold set get?
  rw [Array.getElem?_setIfInBounds]
  by_cases same : slot = other
  case pos =>
    subst same
    rw [if_pos rfl, if_pos rfl, if_pos]
    · rfl
    · rw [Array.size_append, Array.size_replicate]
      omega
  case neg =>
    rw [if_neg same, if_neg (Ne.symm same), Array.getElem?_append]
    by_cases less : other < table.slots.size
    case pos => rw [if_pos less]
    case neg =>
      rw [if_neg less, Array.getElem?_eq_none (Nat.le_of_not_lt less), Array.getElem?_replicate]
      split <;> rfl

theorem get?_release : (table.release slot).get? other =
    if other = slot then none else table.get? other := by
  unfold release get?
  rw [Array.getElem?_setIfInBounds]
  by_cases same : slot = other
  case pos =>
    subst same
    rw [if_pos rfl, if_pos rfl]
    split <;> rfl
  case neg => rw [if_neg same, if_neg (Ne.symm same)]

theorem get?_foldl_release {slots : List Slot} (kept : other ∉ slots) :
    (slots.foldl release table).get? other = table.get? other := by
  induction slots generalizing table with
  | nil => rfl
  | cons first slots ih =>
    rw [List.mem_cons, not_or] at kept
    rw [List.foldl_cons, ih kept.2, get?_release, if_neg kept.1]

theorem get?_of_foldl_release {slots : List Slot}
    (filled : (slots.foldl release table).get? slot = some raster) : table.get? slot = some raster := by
  induction slots generalizing table with
  | nil => exact filled
  | cons first slots ih =>
    have kept := ih filled
    rw [get?_release] at kept
    split at kept
    · cases kept
    · exact kept

theorem set_release (table : RasterTable) (slot : Slot) (raster : Raster) :
    (table.release slot).set slot raster = table.set slot raster := by
  unfold release set
  rw [Array.size_setIfInBounds, RasterTable.mk.injEq]
  apply Array.ext_getElem?
  intro other
  simp only [Array.getElem?_setIfInBounds, Array.getElem?_append, Array.size_append,
    Array.size_setIfInBounds]
  by_cases same : slot = other
  · rw [if_pos same, if_pos same]
  · simp only [if_neg same]

theorem get_eq_ok : table.get slot = .ok raster ↔ table.get? slot = some raster := by
  unfold get
  split
  case h_1 found => simp [found]
  case h_2 none => simp [none]

theorem mapAt_eq_ok {map : HeightMap} :
    table.mapAt slot = .ok map ↔ table.get? slot = some (.map map) := by
  constructor
  · intro read
    obtain ⟨raster, found, rest⟩ := checked_bind_eq_ok read
    cases raster with
    | map map =>
      cases rest
      exact get_eq_ok.1 found
    | profile profile => cases rest
  · intro found
    rw [mapAt, get_eq_ok.2 found]
    rfl

def Holds (table : RasterTable) (slot : Slot) (kind : RasterKind) : Prop :=
  ∃ raster, table.get? slot = some raster ∧ raster.kind = kind

theorem Holds.fits_get (holds : table.Holds slot kind) : Fits (table.get slot) (·.kind = kind) := by
  obtain ⟨raster, found, same⟩ := holds
  rw [get_eq_ok.2 found]
  exact same

theorem Holds.fits_mapAt (holds : table.Holds slot .map) :
    Fits (table.mapAt slot) fun map => table.get? slot = some (.map map) := by
  obtain ⟨raster, found, kind⟩ := holds
  cases raster with
  | map map =>
    rw [mapAt_eq_ok.2 found]
    exact found
  | profile profile => cases kind

end RasterTable

/-! ## Arguments -/

namespace ArgumentReader

variable {reader : ArgumentReader} {table : RasterTable} {arguments : List Slot} {slot : Slot}
  {raster : Raster} {kind : RasterKind} {index count : Nat}

theorem ofSlots_eq_ok : ofSlots arguments table.get index = .ok (slot, raster) ↔
    arguments[index]? = some slot ∧ table.get? slot = some raster := by
  unfold ofSlots
  cases found : arguments[index]? with
  | none => exact iff_of_false nofun fun ⟨absent, _⟩ => nomatch absent
  | some first =>
    constructor
    · intro read
      obtain ⟨content, got, rest⟩ := checked_bind_eq_ok read
      cases rest
      exact ⟨rfl, RasterTable.get_eq_ok.1 got⟩
    · rintro ⟨⟨⟩, got⟩
      dsimp only
      rw [RasterTable.get_eq_ok.2 got]
      rfl

/-- A reader asks for the slots in its list only. -/
theorem ofSlots_congr {read read' : Slot → Except Breach Raster}
    (same : ∀ slot ∈ arguments, read slot = read' slot) :
    ofSlots arguments read = ofSlots arguments read' := by
  funext index
  unfold ofSlots
  cases found : arguments[index]? with
  | none => rfl
  | some slot =>
    dsimp only
    rw [same slot (List.mem_of_getElem? found)]

theorem map_eq_ok {map : HeightMap} :
    reader.map index = .ok map ↔ ∃ slot, reader index = .ok (slot, .map map) := by
  constructor
  · intro read
    obtain ⟨⟨slot, raster⟩, found, rest⟩ := checked_bind_eq_ok read
    cases raster with
    | map map =>
      cases rest
      exact ⟨slot, found⟩
    | profile profile => cases rest
  · rintro ⟨slot, found⟩
    rw [ArgumentReader.map, found]
    rfl

theorem profile_eq_ok {profile : HeightProfile} :
    reader.profile index = .ok profile ↔ ∃ slot, reader index = .ok (slot, .profile profile) := by
  constructor
  · intro read
    obtain ⟨⟨slot, raster⟩, found, rest⟩ := checked_bind_eq_ok read
    cases raster with
    | map map => cases rest
    | profile profile =>
      cases rest
      exact ⟨slot, found⟩
  · rintro ⟨slot, found⟩
    rw [ArgumentReader.profile, found]
    rfl

def All (reader : ArgumentReader) (holds : Raster → Prop) : Prop :=
  ∀ index slot raster, reader index = .ok (slot, raster) → holds raster

theorem all_ofSlots {holds : Raster → Prop}
    (all : ∀ slot raster, table.get? slot = some raster → holds raster) :
    (ofSlots arguments table.get).All holds := fun _ slot raster found =>
  all slot raster (ofSlots_eq_ok.1 found).2

theorem All.map {holds : Raster → Prop} (all : reader.All holds) (index : Nat) :
    Gives (reader.map index) fun map => holds (.map map) := by
  intro map read
  obtain ⟨slot, found⟩ := map_eq_ok.1 read
  exact all index slot _ found

theorem All.profile {holds : Raster → Prop} (all : reader.All holds) (index : Nat) :
    Gives (reader.profile index) fun profile => holds (.profile profile) := by
  intro profile read
  obtain ⟨slot, found⟩ := profile_eq_ok.1 read
  exact all index slot _ found

def Supplies (reader : ArgumentReader) (kind : RasterKind) (count : Nat) : Prop :=
  ∀ index < count, ∃ slot raster, reader index = .ok (slot, raster) ∧ raster.kind = kind

theorem supplies_ofSlots (length : arguments.length = count)
    (reads : ∀ slot ∈ arguments, table.Holds slot kind) :
    (ofSlots arguments table.get).Supplies kind count := by
  intro index less
  have found := List.getElem?_eq_getElem (length ▸ less : index < arguments.length)
  obtain ⟨raster, filled, same⟩ := reads _ (List.mem_of_getElem? found)
  exact ⟨_, raster, ofSlots_eq_ok.2 ⟨found, filled⟩, same⟩

theorem Supplies.fits_map (supplies : reader.Supplies .map count) (less : index < count) :
    Fits (reader.map index) fun map => ∃ slot, reader index = .ok (slot, .map map) := by
  obtain ⟨slot, raster, found, kind⟩ := supplies index less
  cases raster with
  | map map =>
    rw [map_eq_ok.2 ⟨slot, found⟩]
    exact ⟨slot, found⟩
  | profile profile => cases kind

theorem Supplies.fits_profile (supplies : reader.Supplies .profile count) (less : index < count) :
    Fits (reader.profile index) fun profile => ∃ slot, reader index = .ok (slot, .profile profile) := by
  obtain ⟨slot, raster, found, kind⟩ := supplies index less
  cases raster with
  | map map => cases kind
  | profile profile =>
    rw [profile_eq_ok.2 ⟨slot, found⟩]
    exact ⟨slot, found⟩

/-! Arguments that have been read are supplied. -/

theorem supplies_zero : reader.Supplies kind 0 := nofun

theorem supplies_one {raster : Raster} (found : reader 0 = .ok (slot, raster)) :
    reader.Supplies raster.kind 1 := by
  intro index less
  obtain rfl := Nat.lt_one_iff.1 less
  exact ⟨slot, raster, found, rfl⟩

theorem supplies_two {raster other : Raster} {slot' : Slot} (found : reader 0 = .ok (slot, raster))
    (found' : reader 1 = .ok (slot', other)) (same : other.kind = raster.kind) :
    reader.Supplies raster.kind 2 := by
  intro index less
  rcases Nat.lt_succ_iff_lt_or_eq.1 less with less | rfl
  · exact supplies_one found index less
  · exact ⟨slot', other, found', same⟩

end ArgumentReader

/-! ## Makers and edits -/

variable {table : RasterTable} {arguments : ArgumentReader}

def Raster.scale : Raster → Scale
  | .map raster => raster.scale
  | .profile raster => raster.scale

def RasterTable.IsAt (table : RasterTable) (scale : Scale) : Prop :=
  ∀ slot raster, table.get? slot = some raster → raster.scale = scale

/-- A map of the shape that an edit leaves. -/
def MapEdit.template (own : Bounds) (map : HeightMap) : MapEdit → HeightMap
  | move offset => map.moveBy offset
  | rescale horizontal vertical =>
    .filled (map.logical.stretched horizontal vertical) (map.raster.stretched horizontal vertical) 0
      map.scale
  | resize rectangle height => .create rectangle height map.scale
  | transform _ =>
    match own with
    | .rectangle extent => .create extent 0 map.scale
    | .interval _ => map
  | _ => map

theorem MapEdit.template_scale {edit : MapEdit} {own : Bounds} {map : HeightMap} :
    (edit.template own map).scale = map.scale := by
  cases edit with
  | transform matrix => cases own <;> rfl
  | _ => rfl

/-- A profile of the shape that an edit leaves. -/
def ProfileEdit.template (profile : HeightProfile) : ProfileEdit → HeightProfile
  | flip => profile.flip
  | move offset => profile.moveBy offset
  | rescale factor => profile.rescale factor
  | resize interval height => .forLogical interval height profile.scale
  | _ => profile

theorem MapMaker.fits_run {maker : MapMaker} (own : Rectangle) (scale : Scale)
    (supplies : arguments.Supplies (Action.makeMap maker).argumentKind (Action.makeMap maker).arity) :
    Fits (maker.run arguments own scale) fun map =>
      arguments.All (·.scale = scale) → (HeightMap.create own 0 scale).SameShape map := by
  cases maker with
  | flat height => exact fun _ => ⟨rfl, rfl, rfl, fun _ => HeightMap.isFull_filled _ _ _ _⟩
  | noise layers seed => exact (HeightMap.fits_noise _ _).imp fun _ same _ => same
  | gradient source destination low high => exact fun _ => HeightMap.sameShape_gradient _ _ _ _
  | radialGradient center radius low high => exact fun _ => HeightMap.sameShape_radialGradient _ _ _ _
  | projection direction =>
    exact (supplies.fits_profile Nat.one_pos).seq fun _ =>
      (HeightMap.fits_projection _).imp fun _ same _ => same
  | clone =>
    refine (supplies.fits_map Nat.one_pos).bind fun original ⟨slot, found⟩ => ?_
    refine (HeightMap.fits_zipWith _).imp fun map same atScale => ?_
    rwa [show original.scale = scale from atScale _ _ _ found] at same

theorem ProfileMaker.fits_run {maker : ProfileMaker} (own : Interval) (scale : Scale)
    (supplies : arguments.Supplies (Action.makeProfile maker).argumentKind
      (Action.makeProfile maker).arity) :
    Fits (maker.run arguments own scale) fun profile =>
      arguments.All (·.scale = scale) → (HeightProfile.forLogical own 0 scale).SameShape profile := by
  cases maker with
  | flat height => exact fun _ => ⟨rfl, rfl, fun _ => HeightProfile.isFull_filled _ _ _⟩
  | gradient source destination low high => exact fun _ => HeightProfile.sameShape_mapCells _
  | ofKeys keys => exact fun _ => HeightProfile.sameShape_ofKeys _
  | noise layers seed => exact (HeightProfile.fits_noise _ _).imp fun _ same _ => same
  | slice direction coordinate =>
    exact (supplies.fits_map Nat.one_pos).seq fun _ =>
      (HeightProfile.fits_slice _ _).imp fun _ same _ => same
  | clone =>
    refine (supplies.fits_profile Nat.one_pos).bind fun original ⟨slot, found⟩ => ?_
    refine (HeightProfile.fits_zipWith _).imp fun profile same atScale => ?_
    rwa [show original.scale = scale from atScale _ _ _ found] at same

theorem MapEdit.fits_run {edit : MapEdit} {own : Bounds} {map : HeightMap} (kind : own.kind = .map)
    (supplies : arguments.Supplies (Action.editMap edit).argumentKind (Action.editMap edit).arity) :
    Fits (edit.run arguments own map) (edit.template own map).SameShape := by
  -- operations with one other map and with two other maps differ in what they compute only
  have one {operation : HeightMap → Except Breach HeightMap} (supplies : arguments.Supplies .map 1)
      (fits : ∀ other, Fits (operation other) map.SameShape) :
      Fits (do operation (← arguments.map 0)) map.SameShape :=
    (supplies.fits_map Nat.one_pos).seq fits
  have two {operation : HeightMap → HeightMap → Except Breach HeightMap}
      (supplies : arguments.Supplies .map 2) (fits : ∀ a b, Fits (operation a b) map.SameShape) :
      Fits (do operation (← arguments.map 0) (← arguments.map 1)) map.SameShape :=
    (supplies.fits_map Nat.two_pos).seq fun a => (supplies.fits_map Nat.one_lt_two).seq (fits a)
  cases edit with
  | addMap => exact one supplies fun _ => HeightMap.fits_zipWith _
  | addMasked height => exact one supplies fun _ => HeightMap.fits_zipWith _
  | intersect => exact one supplies fun _ => HeightMap.fits_zipWith _
  | multiplyMap => exact one supplies fun _ => HeightMap.fits_zipWith _
  | unify => exact one supplies fun _ => HeightMap.fits_zipWith _
  | pattern repeated => exact one supplies fun _ => HeightMap.fits_pattern _
  | addMapMasked => exact two supplies fun _ _ => HeightMap.fits_zipWith3 _
  | combine => exact two supplies fun _ _ => HeightMap.fits_zipWith3 _
  | distort maxDistance => exact two supplies fun _ _ => HeightMap.fits_distort _
  | shift maxDistance direction =>
    exact (supplies.fits_profile Nat.one_pos).seq fun _ => HeightMap.fits_shift _ _
  | transformHeights interval low high =>
    exact (supplies.fits_profile Nat.one_pos).seq fun _ => HeightMap.fits_transformHeights _ _ _
  | transform matrix =>
    cases own with
    | rectangle extent => exact HeightMap.fits_transform _ _
    | interval extent => cases kind
  | abs => exact HeightMap.sameShape_mapSamples _
  | add height => exact HeightMap.sameShape_mapSamples _
  | blur radius => exact HeightMap.sameShape_blur _
  | clampHeights low high => exact HeightMap.fits_clampHeights _ _
  | convexity radius => exact HeightMap.fits_convexityMap _
  | crop rectangle height => exact HeightMap.sameShape_crop _ _
  | cropHeights low high replacement => exact HeightMap.sameShape_mapSamples _
  | distanceMap maxDistance => exact HeightMap.sameShape_distanceMap _
  | drawLine start stop height => exact HeightMap.sameShape_drawLine _ _ _
  | fillRectangle rectangle height => exact HeightMap.fits_fillRectangle _ _
  | noiseLayer waveLength amplitude seed ridged => exact HeightMap.fits_noiseLayer _ _ _ _ _
  | invert => exact HeightMap.sameShape_mapSamples _
  | move offset => exact HeightMap.SameShape.refl _
  | multiply factor => exact HeightMap.sameShape_mapSamples _
  | rescale horizontal vertical => exact HeightMap.fits_rescale _ _
  | resize rectangle height => exact HeightMap.fits_zipWith _

theorem ProfileEdit.fits_run {edit : ProfileEdit} {profile : HeightProfile}
    (supplies : arguments.Supplies (Action.editProfile edit).argumentKind
      (Action.editProfile edit).arity) :
    Fits (edit.run arguments profile) (edit.template profile).SameShape := by
  have one {operation : HeightProfile → Except Breach HeightProfile}
      (supplies : arguments.Supplies .profile 1)
      (fits : ∀ other, Fits (operation other) profile.SameShape) :
      Fits (do operation (← arguments.profile 0)) profile.SameShape :=
    (supplies.fits_profile Nat.one_pos).seq fits
  have two {operation : HeightProfile → HeightProfile → Except Breach HeightProfile}
      (supplies : arguments.Supplies .profile 2)
      (fits : ∀ a b, Fits (operation a b) profile.SameShape) :
      Fits (do operation (← arguments.profile 0) (← arguments.profile 1)) profile.SameShape :=
    (supplies.fits_profile Nat.two_pos).seq fun a =>
      (supplies.fits_profile Nat.one_lt_two).seq (fits a)
  cases edit with
  | addProfile => exact one supplies fun _ => HeightProfile.fits_zipWith _
  | addMasked height => exact one supplies fun _ => HeightProfile.fits_zipWith _
  | intersect => exact one supplies fun _ => HeightProfile.fits_zipWith _
  | multiplyProfile => exact one supplies fun _ => HeightProfile.fits_zipWith _
  | unify => exact one supplies fun _ => HeightProfile.fits_zipWith _
  | pattern repeated => exact one supplies fun _ => HeightProfile.fits_pattern _
  | addProfileMasked => exact two supplies fun _ _ => HeightProfile.fits_zipWith3 _
  | combine => exact two supplies fun _ _ => HeightProfile.fits_zipWith3 _
  | abs => exact HeightProfile.sameShape_mapSamples _
  | add height => exact HeightProfile.sameShape_mapSamples _
  | blur radius => exact HeightProfile.sameShape_blur _
  | clampHeights low high => exact HeightProfile.fits_clampHeights _ _
  | crop interval height => exact HeightProfile.fits_crop _ _
  | cropHeights low high replacement => exact HeightProfile.sameShape_mapSamples _
  | fillInterval interval height => exact HeightProfile.fits_fillInterval _ _
  | flip => exact HeightProfile.SameShape.refl _
  | invert => exact HeightProfile.sameShape_mapSamples _
  | move offset => exact HeightProfile.SameShape.refl _
  | multiply factor => exact HeightProfile.sameShape_mapSamples _
  | noiseLayer waveLength amplitude seed => exact HeightProfile.fits_noiseLayer _ _ _ _
  | rescale factor => exact HeightProfile.SameShape.refl _
  | resize interval height => exact HeightProfile.fits_zipWith _

/-- An edit that ends with a map has found every raster that it reads. -/
theorem MapEdit.supplies_of_run {edit : MapEdit} {own : Bounds} {map after : HeightMap}
    (ran : edit.run arguments own map = .ok after) :
    arguments.Supplies (Action.editMap edit).argumentKind (Action.editMap edit).arity := by
  cases edit with
  | addMap | addMasked | intersect | multiplyMap | pattern | unify =>
    obtain ⟨_, read, -⟩ := checked_bind_eq_ok ran
    obtain ⟨_, found⟩ := ArgumentReader.map_eq_ok.1 read
    exact ArgumentReader.supplies_one found
  | shift | transformHeights =>
    obtain ⟨_, read, -⟩ := checked_bind_eq_ok ran
    obtain ⟨_, found⟩ := ArgumentReader.profile_eq_ok.1 read
    exact ArgumentReader.supplies_one found
  | addMapMasked | combine | distort =>
    obtain ⟨_, read, rest⟩ := checked_bind_eq_ok ran
    obtain ⟨_, readToo, -⟩ := checked_bind_eq_ok rest
    obtain ⟨_, found⟩ := ArgumentReader.map_eq_ok.1 read
    obtain ⟨_, foundToo⟩ := ArgumentReader.map_eq_ok.1 readToo
    exact ArgumentReader.supplies_two found foundToo rfl
  | _ => exact ArgumentReader.supplies_zero

theorem ProfileEdit.supplies_of_run {edit : ProfileEdit} {profile after : HeightProfile}
    (ran : edit.run arguments profile = .ok after) :
    arguments.Supplies (Action.editProfile edit).argumentKind (Action.editProfile edit).arity := by
  cases edit with
  | addProfile | addMasked | intersect | multiplyProfile | pattern | unify =>
    obtain ⟨_, read, -⟩ := checked_bind_eq_ok ran
    obtain ⟨_, found⟩ := ArgumentReader.profile_eq_ok.1 read
    exact ArgumentReader.supplies_one found
  | addProfileMasked | combine =>
    obtain ⟨_, read, rest⟩ := checked_bind_eq_ok ran
    obtain ⟨_, readToo, -⟩ := checked_bind_eq_ok rest
    obtain ⟨_, found⟩ := ArgumentReader.profile_eq_ok.1 read
    obtain ⟨_, foundToo⟩ := ArgumentReader.profile_eq_ok.1 readToo
    exact ArgumentReader.supplies_two found foundToo rfl
  | _ => exact ArgumentReader.supplies_zero

/-! ## Steps -/

namespace Step

variable {step : Step} {own : Bounds} {scale : Scale} {after : RasterTable} {gallery hung : Gallery}

/-- The rasters that a step reads beside its target, as they are before it. -/
def inputs (step : Step) (table : RasterTable) : ArgumentReader := .ofSlots step.arguments table.get

/-- With the target out of the table, an edit finds what it would find with the target in it: a copy
takes the place of the target if the edit reads it. -/
theorem ofSlots_lookUp {raster : Raster} (filled : table.get? step.target = some raster) :
    ArgumentReader.ofSlots step.arguments (step.lookUp (table.release step.target)
      (if step.arguments.contains step.target then some raster else none)) = step.inputs table := by
  refine ArgumentReader.ofSlots_congr fun slot argument => ?_
  have others (other : slot ≠ step.target) : (table.release step.target).get slot = table.get slot := by
    unfold RasterTable.get
    rw [RasterTable.get?_release, if_neg other]
  unfold lookUp
  split
  case h_1 copy isCopy =>
    split at isCopy
    case isTrue =>
      cases isCopy
      split
      case isTrue same => rw [same, RasterTable.get_eq_ok.2 filled]
      case isFalse other => exact others other
    case isFalse => cases isCopy
  case h_2 none =>
    split at none
    case isTrue => cases none
    case isFalse unread =>
      refine others fun same => unread ?_
      rwa [List.contains_iff_mem, ← same]

/-- An edit changes its target and reads its arguments as they are before the step. -/
theorem run_of_edits (edits : step.isMaker = false) (draws : step.action.isYield = false) :
    step.run own scale table gallery = (do
      let target ← table.get step.target
      return (table.set step.target (← step.change own (step.inputs table) target), gallery)) := by
  unfold run
  rw [edits, if_neg Bool.false_ne_true]
  split
  case h_1 name rectangle action =>
    rw [action] at draws
    cases draws
  case h_2 =>
    unfold RasterTable.take
    cases found : table.get step.target with
    | error breach => rfl
    | ok raster =>
      change step.change own _ raster >>= _ = step.change own _ raster >>= _
      rw [ofSlots_lookUp (RasterTable.get_eq_ok.1 found)]
      cases step.change own (step.inputs table) raster with
      | error breach => rfl
      | ok changed => exact congrArg (fun after => Except.ok (after, gallery)) (table.set_release _ _)

/-- All that a step can do to a table and a gallery. -/
inductive Changes (step : Step) (own : Bounds) (scale : Scale) (table : RasterTable)
    (gallery : Gallery) : RasterTable → Gallery → Prop
  | shown {name : String} {rectangle : Rectangle} {map copy : HeightMap}
      (action : step.action = .yield name rectangle)
      (filled : table.get? step.target = some (.map map)) (made : map.cutout rectangle = .ok copy) :
      Changes step own scale table gallery table (gallery.insert name copy)
  | madeMap {maker : MapMaker} {extent : Rectangle} {map : HeightMap}
      (action : step.action = .makeMap maker) (bounds : own = .rectangle extent)
      (made : maker.run (step.inputs table) extent scale = .ok map) :
      Changes step own scale table gallery (table.set step.target (.map map)) gallery
  | madeProfile {maker : ProfileMaker} {extent : Interval} {profile : HeightProfile}
      (action : step.action = .makeProfile maker) (bounds : own = .interval extent)
      (made : maker.run (step.inputs table) extent scale = .ok profile) :
      Changes step own scale table gallery (table.set step.target (.profile profile)) gallery
  | editedMap {edit : MapEdit} {map edited : HeightMap} (action : step.action = .editMap edit)
      (filled : table.get? step.target = some (.map map))
      (made : edit.run (step.inputs table) own map = .ok edited) :
      Changes step own scale table gallery (table.set step.target (.map edited)) gallery
  | editedProfile {edit : ProfileEdit} {profile edited : HeightProfile}
      (action : step.action = .editProfile edit)
      (filled : table.get? step.target = some (.profile profile))
      (made : edit.run (step.inputs table) profile = .ok edited) :
      Changes step own scale table gallery (table.set step.target (.profile edited)) gallery

theorem changes_of_run (ran : step.run own scale table gallery = .ok (after, hung)) :
    step.Changes own scale table gallery after hung := by
  cases action : step.action with
  | makeMap maker =>
    unfold run isMaker create at ran
    rw [action, Action.isMaker, if_pos rfl] at ran
    obtain ⟨raster, created, ended⟩ := checked_bind_eq_ok ran
    obtain ⟨extent, isRectangle, rest⟩ := checked_bind_eq_ok created
    obtain ⟨map, made, isMap⟩ := checked_bind_eq_ok rest
    cases isMap
    cases ended
    cases own with
    | rectangle extent =>
      cases isRectangle
      exact .madeMap action rfl made
    | interval extent => cases isRectangle
  | makeProfile maker =>
    unfold run isMaker create at ran
    rw [action, Action.isMaker, if_pos rfl] at ran
    obtain ⟨raster, created, ended⟩ := checked_bind_eq_ok ran
    obtain ⟨extent, isInterval, rest⟩ := checked_bind_eq_ok created
    obtain ⟨profile, made, isProfile⟩ := checked_bind_eq_ok rest
    cases isProfile
    cases ended
    cases own with
    | rectangle extent => cases isInterval
    | interval extent =>
      cases isInterval
      exact .madeProfile action rfl made
  | yield name rectangle =>
    unfold run isMaker at ran
    rw [action, Action.isMaker, if_neg Bool.false_ne_true] at ran
    obtain ⟨map, read, rest⟩ := checked_bind_eq_ok ran
    obtain ⟨copy, made, ended⟩ := checked_bind_eq_ok rest
    cases ended
    exact .shown action (RasterTable.mapAt_eq_ok.1 read) made
  | editMap edit =>
    rw [run_of_edits (by rw [isMaker, action, Action.isMaker]) (by rw [action]; rfl)] at ran
    obtain ⟨raster, read, rest⟩ := checked_bind_eq_ok ran
    obtain ⟨changed, change, ended⟩ := checked_bind_eq_ok rest
    cases ended
    unfold Step.change at change
    rw [action] at change
    cases raster with
    | map map =>
      obtain ⟨edited, made, isMap⟩ := checked_bind_eq_ok change
      cases isMap
      exact .editedMap action (RasterTable.get_eq_ok.1 read) made
    | profile profile => cases change
  | editProfile edit =>
    rw [run_of_edits (by rw [isMaker, action, Action.isMaker]) (by rw [action]; rfl)] at ran
    obtain ⟨raster, read, rest⟩ := checked_bind_eq_ok ran
    obtain ⟨changed, change, ended⟩ := checked_bind_eq_ok rest
    cases ended
    unfold Step.change at change
    rw [action] at change
    cases raster with
    | map map => cases change
    | profile profile =>
      obtain ⟨edited, made, isProfile⟩ := checked_bind_eq_ok change
      cases isProfile
      exact .editedProfile action (RasterTable.get_eq_ok.1 read) made

theorem Changes.get?_eq (changes : step.Changes own scale table gallery after hung) {slot : Slot}
    (other : slot ≠ step.target) : after.get? slot = table.get? slot := by
  cases changes with
  | shown => rfl
  | _ => rw [RasterTable.get?_set, if_neg other]

/-- The table after a step: a raster of the step's kind in its target, the others as they were. -/
def Updates (step : Step) (table after : RasterTable) : Prop :=
  after.Holds step.target step.action.kind ∧
    ∀ other, other ≠ step.target → after.get? other = table.get? other

theorem Changes.updates (changes : step.Changes own scale table gallery after hung) :
    step.Updates table after := by
  refine ⟨?_, fun other => changes.get?_eq⟩
  have filled (raster : Raster) : (table.set step.target raster).get? step.target = some raster := by
    rw [RasterTable.get?_set, if_pos rfl]
  cases changes with
  | shown action held => exact ⟨_, held, by rw [action]; rfl⟩
  | madeMap action | madeProfile action | editedMap action | editedProfile action =>
    exact ⟨_, filled _, by rw [action]; rfl⟩

/-- A maker that finds what it reads makes a raster. -/
theorem fits_create (makes : step.isMaker = true) (ownKind : own.kind = step.action.kind)
    (supplies : (step.inputs table).Supplies step.action.argumentKind step.action.arity) :
    Fits (step.create own scale table) fun _ => True := by
  unfold isMaker at makes
  unfold create
  cases action : step.action with
  | makeMap maker =>
    rw [action] at ownKind supplies
    refine (Bounds.fits_asRectangle ownKind).seq fun own => ?_
    exact (MapMaker.fits_run own scale supplies).seq fun map => .pure trivial
  | makeProfile maker =>
    rw [action] at ownKind supplies
    refine (Bounds.fits_asInterval ownKind).seq fun own => ?_
    exact (ProfileMaker.fits_run own scale supplies).seq fun profile => .pure trivial
  | _ =>
    rw [action] at makes
    cases makes

/-- An edit that finds what it reads changes a raster of its kind. -/
theorem fits_change {raster : Raster} (edits : step.isMaker = false)
    (draws : step.action.isYield = false) (ownKind : own.kind = step.action.kind)
    (supplies : (step.inputs table).Supplies step.action.argumentKind step.action.arity)
    (kind : raster.kind = step.action.kind) :
    Fits (step.change own (step.inputs table) raster) fun _ => True := by
  unfold isMaker at edits
  unfold change
  cases action : step.action with
  | editMap edit =>
    rw [action] at ownKind supplies kind
    cases raster with
    | profile profile => cases kind
    | map map => exact (MapEdit.fits_run ownKind supplies).seq fun map => .pure trivial
  | editProfile edit =>
    rw [action] at supplies kind
    cases raster with
    | map map => cases kind
    | profile profile => exact (ProfileEdit.fits_run supplies).seq fun profile => .pure trivial
  | yield name rectangle =>
    rw [action] at draws
    cases draws
  | _ =>
    rw [action] at edits
    cases edits

/-- A step that finds what it reads breaks no rule of slots and kinds. -/
theorem fits_run (ownKind : own.kind = step.action.kind)
    (supplies : (step.inputs table).Supplies step.action.argumentKind step.action.arity)
    (changes : step.isMaker = false → table.Holds step.target step.action.kind) :
    Fits (step.run own scale table gallery) fun result => step.Updates table result.1 := by
  suffices sound : Fits (step.run own scale table gallery) fun _ => True by
    cases ran : step.run own scale table gallery with
    | ok result => exact (changes_of_run ran).updates
    | error breach => exact sound.error ran
  cases maker : step.isMaker with
  | true =>
    unfold run
    rw [maker, if_pos rfl]
    exact (fits_create maker ownKind supplies).seq fun raster => .pure trivial
  | false =>
    have holds := changes maker
    cases draws : step.action.isYield with
    | true =>
      obtain ⟨name, rectangle, action⟩ := Action.exists_of_isYield draws
      unfold run
      rw [maker, if_neg Bool.false_ne_true, action]
      rw [action] at holds
      exact holds.fits_mapAt.seq fun map => (HeightMap.fits_zipWith _).seq fun copy => .pure trivial
    | false =>
      rw [run_of_edits maker draws]
      refine holds.fits_get.bind fun raster kind => ?_
      exact (fits_change maker draws ownKind supplies kind).seq fun changed => .pure trivial

end Step

end Terrain
