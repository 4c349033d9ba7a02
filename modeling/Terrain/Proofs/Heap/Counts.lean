import Mathlib.Algebra.BigOperators.Group.Multiset.Basic
import Mathlib.Data.Multiset.Bind
import Mathlib.Tactic.Abel
import Terrain.Proofs.Outcome

/-!
# Reference counts

The count of an object is the number of references to it: those held from outside the heap, given as
a multiset, and those in the arrays of the heap. `Heap.Accounted` says so for a whole heap, and every
operation of the heap says how the references held from outside change.

* `Heap.total`, `Heap.contained` — sums over the live cells, and how they change with a cell.
* `Heap.Accounted` — the counts are exact.
* `Heap.ends_addRef`, `Heap.ends_release`, `Heap.ends_destroy` — the elementary operations.
* `Heap.Drops` — an action that gives references back, with `Heap.exists_drain_eq_ok` for the cascade.
-/

namespace Terrain

def Value.IsPlain (value : Value) : Prop := value.children = [] ∧ ∀ kind, value ≠ .raster kind

namespace Heap

/-! ## Sums over the live cells -/

section Total

variable {M : Type} [AddCommMonoid M]

/-- Sum of a figure of the live cells. -/
def total (heap : Heap) (figure : Cell → M) : M :=
  (heap.cells.toList.map fun cell => (cell.map figure).getD 0).sum

/-- Changing one entry of a list exchanges its share of the sum. -/
theorem sum_modify {α : Type} (share : α → M) (change : α → α) :
    ∀ (items : List α) (index : Nat) (item : α), items[index]? = some item →
      ((items.modify index change).map share).sum + share item =
        (items.map share).sum + share (change item)
  | [], _, _, found => by simp at found
  | head :: tail, 0, item, found => by
    simp only [List.getElem?_cons_zero, Option.some.injEq] at found
    subst found
    simp only [List.modify_zero_cons, List.map_cons, List.sum_cons]
    abel
  | head :: tail, index + 1, item, found => by
    have rest := sum_modify share change tail index item (by simpa using found)
    simp only [List.modify_succ_cons, List.map_cons, List.sum_cons, add_assoc, rest]

theorem cell?_eq_some_iff {heap : Heap} {id : ObjectId} {cell : Cell} :
    heap.cell? id = some cell ↔ heap.cells.toList[id]? = some (some cell) := by
  simp [cell?, Option.join_eq_some_iff]

theorem total_modifyCell {heap : Heap} {id : ObjectId} {cell : Cell} (figure : Cell → M)
    (change : Cell → Cell) (found : heap.cell? id = some cell) :
    (heap.modifyCell id change).total figure + figure cell =
      heap.total figure + figure (change cell) := by
  have sums := sum_modify (fun cell : Option Cell => (cell.map figure).getD 0) (Option.map change)
    heap.cells.toList id (some cell) (cell?_eq_some_iff.1 found)
  simpa [total, modifyCell] using sums

theorem total_forget {heap : Heap} {id : ObjectId} {cell : Cell} (figure : Cell → M)
    (found : heap.cell? id = some cell) :
    (heap.forget id).total figure + figure cell = heap.total figure := by
  have sums := sum_modify (fun cell : Option Cell => (cell.map figure).getD 0) (fun _ => none)
    heap.cells.toList id (some cell) (cell?_eq_some_iff.1 found)
  simpa [total, forget] using sums

end Total

/-! ## Cells after a change -/

theorem cell?_modifyCell (heap : Heap) (id other : ObjectId) (change : Cell → Cell) :
    (heap.modifyCell id change).cell? other =
      if id = other then (heap.cell? other).map change else heap.cell? other := by
  simp only [modifyCell, cell?, Array.getElem?_modify]
  split
  · cases heap.cells[other]? with
    | none => rfl
    | some cell => cases cell <;> rfl
  · rfl

theorem cell?_forget (heap : Heap) (id other : ObjectId) :
    (heap.forget id).cell? other = if id = other then none else heap.cell? other := by
  simp only [forget, cell?, Array.getElem?_modify]
  split
  · cases heap.cells[other]? <;> rfl
  · rfl

def value? (heap : Heap) (id : ObjectId) : Option Value := (heap.cell? id).map (·.value)

/-- Counting does not change values. -/
theorem value?_modifyCell (heap : Heap) (id : ObjectId) {change : Cell → Cell}
    (keeps : ∀ cell, (change cell).value = cell.value) :
    (heap.modifyCell id change).value? = heap.value? := by
  funext other
  rw [value?, cell?_modifyCell]
  split
  · cases found : heap.cell? other <;> simp [value?, found, keeps]
  · rfl

theorem contains_of_cell? {heap : Heap} {id : ObjectId} {cell : Cell}
    (found : heap.cell? id = some cell) : heap.contains id := by
  rw [contains, found, Option.isSome_some]

theorem contains_iff_value? {heap : Heap} {id : ObjectId} :
    heap.contains id ↔ ∃ value, heap.value? id = some value := by
  simp only [contains, value?, Option.isSome_iff_exists, Option.map_eq_some_iff]
  exact ⟨fun ⟨cell, found⟩ => ⟨cell.value, cell, found, rfl⟩, fun ⟨_, cell, found, _⟩ => ⟨cell, found⟩⟩

theorem lt_size_of_cell? {heap : Heap} {id : ObjectId} {cell : Cell}
    (found : heap.cell? id = some cell) : id < heap.cells.size := by
  have index := cell?_eq_some_iff.1 found
  simpa using (List.getElem?_eq_some_iff.1 index).1

theorem cells_size_modifyCell (heap : Heap) (id : ObjectId) (change : Cell → Cell) :
    (heap.modifyCell id change).cells.size = heap.cells.size := by
  simp [modifyCell]

theorem cells_size_forget (heap : Heap) (id : ObjectId) :
    (heap.forget id).cells.size = heap.cells.size := by
  simp [forget]

/-! ## References inside the heap -/

/-- The references that live arrays hold, one for every occurrence as a key or as a value. -/
def contained (heap : Heap) : Multiset ObjectId := heap.total fun cell => ↑cell.value.children

/-- What is known of the raster handles of a heap: which objects they can be, and how many handles
were given out at least. -/
structure Handles where
  rasters : ObjectId → RasterKind → Prop
  floor : Nat

/-- The counts of a heap are exact: every count is the number of references from outside, which are
`held`, and of those inside the heap. Only objects in `fresh` may have no references at all. -/
structure Accounted (heap : Heap) (held : Multiset ObjectId) (fresh : Set ObjectId)
    (handles : Handles) : Prop where
  isOpen : heap.closed = false
  total : heap.references = heap.total (·.references)
  counts : ∀ id, (heap.refCount? id).getD 0 = (held + heap.contained).count id
  settled : ∀ id, heap.refCount? id = some 0 → id ∈ fresh
  rasters : ∀ id cell kind, heap.cell? id = some cell → cell.value = .raster kind →
    handles.rasters id kind
  floor : handles.floor ≤ heap.cells.size

theorem accounted_empty (handles : Handles) (none : handles.floor = 0) :
    empty.Accounted 0 ∅ handles where
  isOpen := rfl
  total := rfl
  counts id := by simp [empty, refCount?, cell?, contained, total]
  settled id unreferenced := by simp [empty, refCount?, cell?] at unreferenced
  rasters id cell kind found := by simp [empty, cell?] at found
  floor := by simp [none]

namespace Accounted

variable {heap : Heap} {held : Multiset ObjectId} {fresh : Set ObjectId} {handles : Handles}
  {id : ObjectId} {cell : Cell}

/-- What is referred to is live. -/
theorem live_of_mem_add (accounted : heap.Accounted held fresh handles)
    (referred : id ∈ held + heap.contained) :
    ∃ cell, heap.cell? id = some cell ∧ 0 < cell.references := by
  have counted := accounted.counts id
  have positive := Multiset.count_pos.2 referred
  simp only [refCount?] at counted
  cases found : heap.cell? id with
  | none =>
    rw [found] at counted
    simp only [Option.map_none, Option.getD_none] at counted
    omega
  | some cell =>
    rw [found] at counted
    simp only [Option.map_some, Option.getD_some] at counted
    exact ⟨cell, rfl, by omega⟩

theorem live (accounted : heap.Accounted held fresh handles) (referred : id ∈ held) :
    ∃ cell, heap.cell? id = some cell ∧ 0 < cell.references :=
  accounted.live_of_mem_add (Multiset.mem_add.2 (.inl referred))

theorem contains (accounted : heap.Accounted held fresh handles) (referred : id ∈ held) :
    heap.contains id := by
  obtain ⟨cell, found, _⟩ := accounted.live referred
  simp [Heap.contains, found]

/-- The count of a live object. -/
theorem references_eq (accounted : heap.Accounted held fresh handles)
    (found : heap.cell? id = some cell) :
    cell.references = held.count id + heap.contained.count id := by
  have counted := accounted.counts id
  simpa only [refCount?, found, Option.map_some, Option.getD_some, Multiset.count_add] using counted

/-- Only as many references as there are counts. -/
theorem references_pos (accounted : heap.Accounted held fresh handles) (referred : id ∈ held) :
    0 < heap.references := by
  obtain ⟨cell, found, positive⟩ := accounted.live referred
  have shares := total_forget (fun cell => cell.references) found
  rw [accounted.total]
  omega

theorem of_eq (accounted : heap.Accounted held fresh handles) {held' : Multiset ObjectId}
    (same : held = held') : heap.Accounted held' fresh handles :=
  same ▸ accounted

theorem mono (accounted : heap.Accounted held fresh handles) {fresh' : Set ObjectId}
    (more : fresh ⊆ fresh') : heap.Accounted held fresh' handles :=
  { accounted with settled := fun id none => more (accounted.settled id none) }

/-- Other knowledge of the raster handles that are live. -/
theorem withHandles (accounted : heap.Accounted held fresh handles) {handles' : Handles}
    (known : ∀ id kind, heap.contains id → handles.rasters id kind → handles'.rasters id kind)
    (floor : handles'.floor ≤ heap.cells.size) : heap.Accounted held fresh handles' where
  isOpen := accounted.isOpen
  total := accounted.total
  counts := accounted.counts
  settled := accounted.settled
  rasters id cell kind found shape :=
    known id kind (contains_of_cell? found) (accounted.rasters id cell kind found shape)
  floor := floor

/-- One object changes its count and the references it holds; those it gains or loses are exchanged
with the ones from outside. -/
theorem update (accounted : heap.Accounted held fresh handles) (found : heap.cell? id = some cell)
    {held' : Multiset ObjectId} {fresh' : Set ObjectId} {references : Nat} {change : Cell → Cell}
    (exchange : held' + ↑(change cell).value.children + Multiset.replicate cell.references id =
      held + ↑cell.value.children + Multiset.replicate (change cell).references id)
    (sum : references + cell.references = heap.references + (change cell).references)
    (shape : ∀ kind, (change cell).value = .raster kind → cell.value = .raster kind)
    (ownSettled : (change cell).references = 0 → id ∈ fresh')
    (othersSettled : ∀ other ∈ fresh, other ≠ id → other ∈ fresh') :
    { heap.modifyCell id change with references }.Accounted held' fresh' handles := by
  have cells (other : ObjectId) : { heap.modifyCell id change with references }.cell? other =
      if id = other then some (change cell) else heap.cell? other := by
    refine (cell?_modifyCell heap id other change).trans ?_
    split
    case isTrue same => rw [← same, found]; rfl
    case isFalse => rfl
  have inside : (heap.modifyCell id change).contained + ↑cell.value.children =
      heap.contained + ↑(change cell).value.children :=
    total_modifyCell _ change found
  have outside (other : ObjectId) := congrArg (Multiset.count other) exchange
  simp only [Multiset.count_add, Multiset.count_replicate] at outside
  have counted (other : ObjectId) := congrArg (Multiset.count other) inside
  simp only [Multiset.count_add] at counted
  constructor
  case isOpen => exact accounted.isOpen
  case total =>
    have sums := total_modifyCell (fun cell => cell.references) change found
    have before := accounted.total
    change references = (heap.modifyCell id change).total _
    omega
  case counts =>
    intro other
    change _ = (held' + (heap.modifyCell id change).contained).count other
    have exchanged := outside other
    have remaining := counted other
    rw [refCount?, cells, Multiset.count_add]
    by_cases same : id = other
    · have own := accounted.references_eq found
      subst same
      simp only [if_pos, Option.map_some, Option.getD_some] at exchanged ⊢
      omega
    · have before := accounted.counts other
      rw [refCount?, Multiset.count_add] at before
      simp only [same, if_false] at exchanged ⊢
      omega
  case settled =>
    intro other none
    rw [refCount?, cells] at none
    split at none
    case isTrue same =>
      subst same
      exact ownSettled (by simpa using none)
    case isFalse different =>
      exact othersSettled other (accounted.settled other none) (Ne.symm different)
  case rasters =>
    intro other cell' kind found' value
    rw [cells] at found'
    split at found'
    case isTrue same =>
      subst same
      cases found'
      exact accounted.rasters id cell kind found (shape kind value)
    case isFalse => exact accounted.rasters other cell' kind found' value
  case floor => simpa [cells_size_modifyCell] using accounted.floor

/-- A forgotten object takes its count with it, and the references it had are held from outside
then. -/
theorem forget (accounted : heap.Accounted held fresh handles) (found : heap.cell? id = some cell)
    {held' : Multiset ObjectId} {references : Nat}
    (exchange : held' + Multiset.replicate cell.references id = held + ↑cell.value.children)
    (sum : references + cell.references = heap.references) :
    { heap.forget id with references }.Accounted held' fresh handles := by
  have cells (other : ObjectId) : { heap.forget id with references }.cell? other =
      if id = other then none else heap.cell? other := cell?_forget heap id other
  have inside : (heap.forget id).contained + ↑cell.value.children = heap.contained :=
    total_forget _ found
  have outside (other : ObjectId) := congrArg (Multiset.count other) exchange
  simp only [Multiset.count_add, Multiset.count_replicate] at outside
  have counted (other : ObjectId) := congrArg (Multiset.count other) inside
  simp only [Multiset.count_add] at counted
  constructor
  case isOpen => exact accounted.isOpen
  case total =>
    have sums := total_forget (fun cell => cell.references) found
    have before := accounted.total
    change references = (heap.forget id).total _
    omega
  case counts =>
    intro other
    change _ = (held' + (heap.forget id).contained).count other
    have exchanged := outside other
    have remaining := counted other
    rw [refCount?, cells, Multiset.count_add]
    by_cases same : id = other
    · -- its own count was the sum of all references to it, and they are all gone
      have own := accounted.references_eq found
      subst same
      simp only [if_pos, Option.map_none, Option.getD_none] at exchanged ⊢
      omega
    · have before := accounted.counts other
      rw [refCount?, Multiset.count_add] at before
      simp only [same, if_false] at exchanged ⊢
      omega
  case settled =>
    intro other none
    rw [refCount?, cells] at none
    split at none
    case isTrue => cases none
    case isFalse => exact accounted.settled other none
  case rasters =>
    intro other cell' kind found' value
    rw [cells] at found'
    split at found'
    case isTrue => cases found'
    case isFalse => exact accounted.rasters other cell' kind found' value
  case floor => simpa [cells_size_forget] using accounted.floor

end Accounted

/-! ## What dropping references leaves -/

/-- An object refers to another one: it is an array with the other as a key or as a value. -/
def Refers (heap : Heap) (holder id : ObjectId) : Prop :=
  ∃ value, heap.value? holder = some value ∧ id ∈ value.children

/-- Every object of a set is referred to from within the set. -/
def Supports (heap : Heap) (ids : Set ObjectId) : Prop :=
  ∀ id ∈ ids, ∃ holder ∈ ids, heap.Refers holder id

/-- What is left when references are dropped: no object has another value, and objects that keep each
other alive are still there. -/
structure Remains (before after : Heap) : Prop where
  values : ∀ id value, after.value? id = some value → before.value? id = some value
  supported : ∀ ids, before.Supports ids → after.Supports ids

theorem Remains.refl (heap : Heap) : heap.Remains heap := ⟨fun _ _ => id, fun _ => id⟩

theorem Remains.trans {before between after : Heap} (first : before.Remains between)
    (second : between.Remains after) : before.Remains after where
  values id value found := first.values id value (second.values id value found)
  supported ids supports := second.supported ids (first.supported ids supports)

theorem mem_contained_of_refers {heap : Heap} {holder id : ObjectId} (refers : heap.Refers holder id) :
    id ∈ heap.contained := by
  obtain ⟨value, found, child⟩ := refers
  obtain ⟨cell, stored, rfl⟩ := Option.map_eq_some_iff.1 found
  have inside : (heap.forget holder).contained + ↑cell.value.children = heap.contained :=
    total_forget _ stored
  rw [← inside]
  exact Multiset.mem_add.2 (.inr child)

theorem refers_of_mem_contained {heap : Heap} {id : ObjectId} (member : id ∈ heap.contained) :
    ∃ holder, heap.Refers holder id := by
  rw [contained, total, ← Multiset.sum_coe] at member
  obtain ⟨share, listed, inside⟩ := Multiset.mem_join.1 member
  obtain ⟨cell, stored, rfl⟩ := List.mem_map.1 (Multiset.mem_coe.1 listed)
  obtain ⟨holder, found⟩ := List.mem_iff_getElem?.1 stored
  cases cell with
  | none => cases Multiset.notMem_zero id inside
  | some cell =>
    refine ⟨holder, cell.value, ?_, inside⟩
    rw [value?, cell?_eq_some_iff.2 found, Option.map_some]

theorem value?_forget (heap : Heap) (id other : ObjectId) :
    (heap.forget id).value? other = if id = other then none else heap.value? other := by
  rw [value?, cell?_forget]
  split <;> rfl

/-! ## Elementary operations -/

section Operations

variable {heap : Heap} {held : Multiset ObjectId} {fresh : Set ObjectId} {handles : Handles}
  {id : ObjectId}

theorem cell?_register (heap : Heap) (value : Value) (id : ObjectId) :
    { heap with cells := heap.cells.push (some ⟨0, value⟩) }.cell? id =
      if id = heap.cells.size then some ⟨0, value⟩ else heap.cell? id := by
  simp only [cell?, Array.getElem?_push]
  split <;> rfl

/-- A new object has no references, and nothing else changes. -/
theorem Accounted.register (accounted : heap.Accounted held fresh handles) {value : Value}
    (leaf : value.children = [])
    {handles' : Handles} (known : ∀ id kind, handles.rasters id kind → handles'.rasters id kind)
    (raster : ∀ kind, value = .raster kind → handles'.rasters heap.cells.size kind)
    (floor : handles'.floor ≤ heap.cells.size + 1) :
    { heap with cells := heap.cells.push (some ⟨0, value⟩) }.Accounted held
      (insert heap.cells.size fresh) handles' := by
  have cells := cell?_register heap value
  have sums {M : Type} [AddCommMonoid M] (figure : Cell → M) :
      { heap with cells := heap.cells.push (some ⟨0, value⟩) }.total figure =
        heap.total figure + figure ⟨0, value⟩ := by
    simp [Heap.total]
  have inside : { heap with cells := heap.cells.push (some ⟨0, value⟩) }.contained =
      heap.contained := by
    simp [contained, sums, leaf]
  have unused : heap.cell? heap.cells.size = none := by simp [cell?]
  constructor
  case isOpen => exact accounted.isOpen
  case total => rw [sums]; exact accounted.total
  case counts =>
    intro other
    rw [inside, ← accounted.counts other, refCount?, refCount?, cells]
    split
    case isTrue same => rw [same, unused]; rfl
    case isFalse => rfl
  case settled =>
    intro other none
    rw [refCount?, cells] at none
    split at none
    case isTrue same => exact .inl same
    case isFalse => exact .inr (accounted.settled other none)
  case rasters =>
    intro other cell kind found shape
    rw [cells] at found
    split at found
    case isTrue same =>
      cases found
      exact same ▸ raster kind shape
    case isFalse => exact known other kind (accounted.rasters other cell kind found shape)
  case floor => simpa using floor

theorem register_run (heap : Heap) (value : Value) : register value heap =
    .ok heap.cells.size { heap with cells := heap.cells.push (some ⟨0, value⟩) } := rfl

theorem ends_register (accounted : heap.Accounted held fresh handles) {value : Value}
    (plain : value.IsPlain) :
    Ends (register value heap)
      (fun id heap' => heap'.Accounted held (insert id fresh) handles ∧
        heap'.cell? id = some ⟨0, value⟩ ∧ ∀ other, heap.contains other → heap'.contains other)
      (fun _ => False) := by
  refine ⟨accounted.register plain.1 (fun _ _ => id) (fun kind shape => absurd shape (plain.2 kind))
    (Nat.le_succ_of_le accounted.floor), ?_, ?_⟩
  · rw [cell?_register, if_pos rfl]
  · intro other live
    rw [Heap.contains, cell?_register]
    split
    · rfl
    · exact live

theorem cell_run {cell : Cell} (found : heap.cell? id = some cell) :
    Heap.cell id heap = .ok cell heap := by
  rw [Heap.cell, get_bind, found]
  rfl

theorem value_run {value : Value} (found : heap.value? id = some value) :
    Heap.value id heap = .ok value heap := by
  obtain ⟨cell, stored, rfl⟩ := Option.map_eq_some_iff.1 found
  simp [Heap.value, bind, EStateM.bind, cell_run stored, pure, EStateM.pure]

theorem addRef_run (isOpen : heap.closed = false) (live : heap.contains id) :
    addRef id heap = .ok () { heap.modifyCell id fun cell =>
      { cell with references := cell.references + 1 } with references := heap.references + 1 } := by
  rw [addRef, get_bind, isOpen, if_neg Bool.false_ne_true, get_bind, if_pos live]
  rfl

theorem ends_addRef (accounted : heap.Accounted held fresh handles) (live : heap.contains id) :
    Ends (addRef id heap)
      (fun _ heap' => heap'.Accounted (id ::ₘ held) (fresh \ {id}) handles ∧
        heap'.value? = heap.value?)
      (fun _ => False) := by
  obtain ⟨cell, found⟩ := Option.isSome_iff_exists.1 live
  rw [addRef_run accounted.isOpen live]
  constructor
  · apply accounted.update found
    case exchange =>
      rw [Multiset.replicate_succ, ← Multiset.singleton_add, ← Multiset.singleton_add]
      abel
    case sum =>
      change _ = _ + (cell.references + 1)
      omega
    case shape => exact fun _ same => same
    case ownSettled => exact fun none => absurd none (Nat.succ_ne_zero _)
    case othersSettled => exact fun other member different => ⟨member, different⟩
  · exact value?_modifyCell heap id fun _ => rfl

theorem exists_addRef_eq_ok (accounted : heap.Accounted held fresh handles) (live : heap.contains id) :
    ∃ counted, addRef id heap = .ok () counted ∧
      counted.Accounted (id ::ₘ held) (fresh \ {id}) handles := by
  have ends := ends_addRef accounted live
  rw [addRef_run accounted.isOpen live] at ends ⊢
  exact ⟨_, rfl, ends.1⟩

/-- An object with one reference that is about to be dropped keeps nobody alive that keeps it alive. -/
theorem Accounted.remains_forget {cell : Cell} {references : Nat}
    (accounted : heap.Accounted held fresh handles) (referred : id ∈ held)
    (found : heap.cell? id = some cell) (last : cell.references = 1) :
    heap.Remains { heap.forget id with references } where
  values other value stored := by
    have stored : (heap.forget id).value? other = some value := stored
    rw [value?_forget] at stored
    split at stored
    · cases stored
    · exact stored
  supported ids supports := by
    -- a holder inside the set would be a second reference
    have outside : id ∉ ids := by
      intro member
      obtain ⟨holder, -, refers⟩ := supports id member
      have counted := accounted.references_eq found
      have inside := Multiset.count_pos.2 (mem_contained_of_refers refers)
      have outer := Multiset.count_pos.2 referred
      omega
    intro other member
    obtain ⟨holder, inSet, value, stored, child⟩ := supports other member
    refine ⟨holder, inSet, value, (value?_forget heap id holder).trans ?_, child⟩
    have apart : id ≠ holder := fun same => outside (same ▸ inSet)
    rw [if_neg apart]
    exact stored

/-- An object whose last reference is dropped makes pending what it referred to. -/
theorem Accounted.remove {pending : List ObjectId} {cell : Cell}
    (accounted : heap.Accounted (held + ↑(id :: pending)) fresh handles)
    (found : heap.cell? id = some cell) (last : cell.references = 1) :
    Accounted { heap.forget id with references := heap.references - 1 }
      (held + ↑(cell.value.children.reverse ++ pending)) fresh handles := by
  have referred : id ∈ held + ↑(id :: pending) := by simp
  have total := accounted.references_pos referred
  refine accounted.forget found ?_ ?_
  · rw [last]
    simp only [← Multiset.coe_add, ← Multiset.cons_coe, Multiset.coe_reverse,
      ← Multiset.singleton_add]
    abel
  · omega

/-- Any other object has one reference less and nothing else changes. -/
theorem Accounted.keep {pending : List ObjectId} {cell : Cell} {remaining : Nat}
    (accounted : heap.Accounted (held + ↑(id :: pending)) fresh handles)
    (found : heap.cell? id = some cell) (more : cell.references = remaining + 2) :
    Accounted { heap.modifyCell id fun cell => { cell with references := remaining + 1 } with
      references := heap.references - 1 } (held + ↑pending) fresh handles := by
  have referred : id ∈ held + ↑(id :: pending) := by simp
  have total := accounted.references_pos referred
  refine accounted.update found ?_ ?_ (fun _ same => same) ?_ ?_
  · rw [more, Multiset.replicate_succ _ (remaining + 1), ← Multiset.cons_coe,
      ← Multiset.singleton_add, ← Multiset.singleton_add]
    abel
  · change heap.references - 1 + _ = heap.references + (remaining + 1)
    omega
  · exact fun none => absurd none (Nat.succ_ne_zero _)
  · exact fun other member _ => member

/-- One round of the cascade drops one reference and may make others pending. -/
theorem Accounted.round {pending : List ObjectId}
    (accounted : heap.Accounted (held + ↑(id :: pending)) fresh handles) (fuel : Nat) :
    ∃ following left, drain (fuel + 1) (id :: pending) heap = drain fuel following left ∧
      left.Accounted (held + ↑following) fresh handles ∧ left.references + 1 = heap.references ∧
      heap.Remains left := by
  have referred : id ∈ held + ↑(id :: pending) := by simp
  obtain ⟨cell, found, positive⟩ := accounted.live referred
  have total := Nat.sub_add_cancel (accounted.references_pos referred)
  generalize count : cell.references = references
  obtain _ | _ | remaining := references
  case zero => omega
  case succ.zero =>
    have run : drain (fuel + 1) (id :: pending) heap =
        drain fuel (cell.value.children.reverse ++ pending)
          { heap.forget id with references := heap.references - 1 } := by
      simp only [drain, bind, EStateM.bind, cell_run found, count]
      rfl
    exact ⟨_, _, run, accounted.remove found count, total,
      accounted.remains_forget referred found count⟩
  case succ.succ =>
    have run : drain (fuel + 1) (id :: pending) heap = drain fuel pending
        { heap.modifyCell id fun cell => { cell with references := remaining + 1 } with
          references := heap.references - 1 } := by
      simp only [drain, bind, EStateM.bind, cell_run found, count]
      rfl
    refine ⟨_, _, run, accounted.keep found count, total, ?_⟩
    have values := @value?_modifyCell heap id (fun cell => { cell with references := remaining + 1 })
      fun _ => rfl
    refine ⟨fun other value stored => ?_, fun ids supports other member => ?_⟩
    · rw [← values]
      exact stored
    · obtain ⟨holder, inSet, value, stored, child⟩ := supports other member
      rw [← values] at stored
      exact ⟨holder, inSet, value, stored, child⟩

/-- The cascade gives back every pending reference. The sum of all counts falls by one in each round,
so it bounds the number of rounds. -/
theorem exists_drain_eq_ok : ∀ (fuel : Nat) (pending : List ObjectId) (heap : Heap),
    heap.Accounted (held + ↑pending) fresh handles → heap.references < fuel →
      ∃ left, drain fuel pending heap = .ok () left ∧ left.Accounted held fresh handles ∧
        heap.Remains left
  | _, [], heap, accounted, _ => by
    unfold drain
    exact ⟨heap, rfl, by simpa using accounted, .refl heap⟩
  | 0, id :: pending, heap, _, enough => absurd enough (Nat.not_lt_zero _)
  | fuel + 1, id :: pending, heap, accounted, enough => by
    obtain ⟨following, between, run, accounted, fewer, first⟩ := accounted.round fuel
    obtain ⟨left, drained, accounted, second⟩ :=
      exists_drain_eq_ok fuel following between accounted (by omega)
    exact ⟨left, run.trans drained, accounted, first.trans second⟩

/-- An action gives references back and has no other effect. -/
def Drops (action : HeapM Unit) (dropped : Multiset ObjectId) : Prop :=
  ∀ heap held fresh handles, heap.Accounted (dropped + held) fresh handles →
    ∃ left, action heap = .ok () left ∧ left.Accounted held fresh handles ∧ heap.Remains left

theorem Drops.ends {action : HeapM Unit} {dropped : Multiset ObjectId} (drops : Drops action dropped)
    (accounted : heap.Accounted (dropped + held) fresh handles) :
    Ends (action heap) (fun _ heap => heap.Accounted held fresh handles) (fun _ => False) := by
  obtain ⟨left, run, accounted, -⟩ := drops _ _ _ _ accounted
  rw [run]
  exact accounted

/-- Actions for the items of a list, one after the other. -/
theorem Drops.forM {α : Type} {action : α → HeapM Unit} {share : α → Multiset ObjectId}
    (drops : ∀ item, Drops (action item) (share item)) :
    ∀ items : List α, Drops (items.forM action) (items.map share).sum
  | [], heap, _, _, _, accounted => ⟨heap, rfl, by simpa using accounted, .refl heap⟩
  | item :: items, heap, _, _, _, accounted => by
    rw [List.map_cons, List.sum_cons, add_assoc] at accounted
    obtain ⟨between, first, accounted, before⟩ := drops item _ _ _ _ accounted
    obtain ⟨left, rest, accounted, after⟩ := Drops.forM drops items _ _ _ _ accounted
    refine ⟨left, ?_, accounted, before.trans after⟩
    change EStateM.bind (action item) (fun _ => items.forM action) heap = _
    simp only [EStateM.bind, first, rest]

theorem release_run (isOpen : heap.closed = false) :
    release id heap = drain (heap.references + 1) [id] heap := by
  rw [release, get_bind, isOpen, if_neg Bool.false_ne_true]

theorem drops_release (id : ObjectId) : Drops (release id) {id} := by
  intro heap held fresh handles accounted
  rw [release_run accounted.isOpen]
  exact exists_drain_eq_ok _ _ _ (accounted.of_eq (add_comm _ _)) (Nat.lt_succ_self _)

theorem drops_releaseAll (ids : List ObjectId) : Drops (releaseAll ids) ↑ids := by
  have shares : (ids.map fun id => ({id} : Multiset ObjectId)).sum = ↑ids := by
    rw [← Multiset.sum_coe, ← Multiset.map_coe, Multiset.sum_map_singleton]
  rw [← shares]
  exact Drops.forM drops_release ids

theorem ends_release (accounted : heap.Accounted (id ::ₘ held) fresh handles) :
    Ends (release id heap) (fun _ heap => heap.Accounted held fresh handles) (fun _ => False) :=
  (drops_release id).ends (accounted.of_eq (Multiset.singleton_add id held).symm)

theorem ends_releaseAll (ids : List ObjectId) (heap : Heap)
    (accounted : heap.Accounted (↑ids + held) fresh handles) :
    Ends (releaseAll ids heap) (fun _ heap => heap.Accounted held fresh handles)
      (fun _ => False) :=
  (drops_releaseAll ids).ends accounted

/-- An object without references can be destroyed. -/
theorem ends_destroy {cell : Cell} (accounted : heap.Accounted held fresh handles)
    (found : heap.cell? id = some cell) (unreferenced : cell.references = 0) :
    Ends (destroy id heap) (fun _ heap => heap.Accounted held (fresh \ {id}) handles)
      (fun _ => False) := by
  have forgotten : (heap.forget id).Accounted (↑cell.value.children + held) (fresh \ {id})
      handles := by
    have kept : (heap.forget id).Accounted (held + ↑cell.value.children) fresh handles :=
      accounted.forget found (by rw [unreferenced, Multiset.replicate_zero, add_zero])
        (by rw [unreferenced, add_zero])
    refine { kept.of_eq (add_comm _ _) with settled := ?_ }
    intro other none
    refine ⟨kept.settled other none, ?_⟩
    rintro rfl
    simp [refCount?, cell?_forget] at none
  unfold destroy
  apply Ends.bind
  rw [cell_run found]
  simp only [Ends, unreferenced, if_true]
  exact Ends.bind (ends_releaseAll _ _ forgotten)

/-- Whatever becomes of a fresh object, no other object is left without references. -/
theorem ends_destroyIfUnreferenced (accounted : heap.Accounted held fresh handles) :
    Ends (destroyIfUnreferenced id heap)
      (fun _ heap => heap.Accounted held (fresh \ {id}) handles) (fun _ => False) := by
  unfold destroyIfUnreferenced
  apply Ends.bind
  change Ends ((if heap.refCount? id = some 0 then destroy id else pure ()) heap) _ _
  split
  case isTrue unreferenced =>
    simp only [refCount?, Option.map_eq_some_iff] at unreferenced
    obtain ⟨cell, found, none⟩ := unreferenced
    exact ends_destroy accounted found none
  case isFalse referenced =>
    refine { accounted with settled := fun other none => ⟨accounted.settled other none, ?_⟩ }
    rintro rfl
    exact referenced none

end Operations

end Heap

end Terrain
