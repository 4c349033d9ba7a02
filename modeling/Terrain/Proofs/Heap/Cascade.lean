import Mathlib.Order.Bounds.Basic
import Terrain.Proofs.Heap.Counts

/-!
# What a release destroys

A release takes one reference from an object and goes on with everything only that object kept alive.
Whatever the references among the objects look like, it removes the objects that nobody owns and that
are held by removed objects alone, each of them once, and leaves all other values as they were.

* `Heap.Exact` — counts are the references from owners outside and from arrays.
* `Heap.Cascade` — the rounds of a release, with the objects it removes.
* `Heap.Abandons` — sets with every object that only objects of the set hold.
* `Heap.release_removes_abandoned` — a release removes the least such set.
-/

namespace Terrain.Heap

variable {heap after : Heap} {owners : Multiset ObjectId} {fresh : Set ObjectId} {handles : Handles}
  {id : ObjectId} {cell : Cell} {pending removed : List ObjectId} {ids : Set ObjectId}

/-- Every object has a reference, and its count is the number of references to it: those of the owners
outside the heap, and its occurrences as a key or as a value in arrays. -/
structure Exact (heap : Heap) (owners : Multiset ObjectId) : Prop where
  isOpen : heap.closed = false
  total : heap.references = heap.total (·.references)
  positive : ∀ id cell, heap.cell? id = some cell → 1 ≤ cell.references
  counts : ∀ id, (heap.refCount? id).getD 0 = owners.count id + heap.contained.count id

/-- Nothing is asked of raster handles, and there are no fresh objects. -/
theorem exact_iff : heap.Exact owners ↔ heap.Accounted owners ∅ ⟨fun _ _ => True, 0⟩ := by
  constructor
  · intro exact
    refine ⟨exact.isOpen, exact.total, fun id => ?_, fun id none => ?_, fun _ _ _ _ _ => trivial,
      Nat.zero_le _⟩
    · rw [exact.counts, Multiset.count_add]
    · obtain ⟨cell, found, zero⟩ := Option.map_eq_some_iff.1 none
      have positive := exact.positive id cell found
      omega
  · intro accounted
    refine ⟨accounted.isOpen, accounted.total, fun id cell found => Nat.pos_of_ne_zero fun zero => ?_,
      fun id => ?_⟩
    · refine accounted.settled id ?_
      rw [refCount?, found, Option.map_some, zero]
    · rw [accounted.counts, Multiset.count_add]

/-! ## Rounds of a release -/

/-- Takes one reference from every pending object, the first one first. An object without references
left is removed, and the objects it referred to become pending, the last one first. -/
inductive Cascade : Heap → (pending removed : List ObjectId) → Heap → Prop where
  | done {heap : Heap} : Cascade heap [] [] heap
  | remove {heap after : Heap} {id : ObjectId} {cell : Cell} {pending removed : List ObjectId}
      (found : heap.cell? id = some cell) (last : cell.references = 1)
      (rest : Cascade { heap.forget id with references := heap.references - 1 }
        (cell.value.children.reverse ++ pending) removed after) :
      Cascade heap (id :: pending) (id :: removed) after
  | keep {heap after : Heap} {id : ObjectId} {cell : Cell} {remaining : Nat}
      {pending removed : List ObjectId}
      (found : heap.cell? id = some cell) (more : cell.references = remaining + 2)
      (rest : Cascade { heap.modifyCell id fun cell => { cell with references := remaining + 1 } with
        references := heap.references - 1 } pending removed after) :
      Cascade heap (id :: pending) removed after

theorem value?_forget_with (heap : Heap) (id other : ObjectId) (references : Nat) :
    value? { heap.forget id with references } other = if id = other then none else heap.value? other :=
  value?_forget heap id other

theorem value?_recount (heap : Heap) (id : ObjectId) (count references : Nat) :
    value? { heap.modifyCell id fun cell => { cell with references := count } with references } =
      heap.value? :=
  value?_modifyCell heap id fun _ => rfl

/-- A loop that comes to its end has gone through such rounds. -/
theorem exists_cascade_of_drain {fuel : Nat} (drained : drain fuel pending heap = .ok () after) :
    ∃ removed, Cascade heap pending removed after := by
  induction fuel generalizing heap pending with
  | zero =>
    cases pending with
    | nil =>
      cases drained
      exact ⟨[], .done⟩
    -- a loop that runs out of fuel does not come to its end
    | cons id pending => cases drained
  | succ fuel ih =>
    cases pending with
    | nil =>
      cases drained
      exact ⟨[], .done⟩
    | cons id pending =>
      cases found : heap.cell? id with
      | none =>
        have absent : Heap.cell id heap = .error (.breach (.notRegistered id)) heap := by
          rw [Heap.cell, get_bind, found]
          rfl
        simp only [drain, bind, EStateM.bind, absent] at drained
        cases drained
      | some cell =>
        simp only [drain, bind, EStateM.bind, cell_run found] at drained
        -- the loop goes by whether the reference that is taken was the last one
        generalize count : cell.references = references at drained
        obtain _ | _ | remaining := references
        case zero => cases drained
        case succ.zero =>
          obtain ⟨removed, rest⟩ := ih drained
          exact ⟨id :: removed, .remove found count rest⟩
        case succ.succ =>
          obtain ⟨removed, rest⟩ := ih drained
          exact ⟨removed, .keep found count rest⟩

namespace Cascade

/-- Removed objects are gone, and all others have their values. -/
theorem value? (cascade : Cascade heap pending removed after) (other : ObjectId) :
    after.value? other = if other ∈ removed then none else heap.value? other := by
  induction cascade with
  | done => simp
  | @remove heap after id cell pending removed found last rest ih =>
    rw [ih, value?_forget_with]
    by_cases same : other = id
    · simp [same]
    · simp [same, Ne.symm same]
  | keep found more rest ih => rw [ih, value?_recount]

/-- What is removed was there, and it is not removed again. -/
theorem nodup (cascade : Cascade heap pending removed after) :
    removed.Nodup ∧ ∀ id ∈ removed, heap.contains id := by
  simp only [contains_iff_value?]
  induction cascade with
  | done => simp
  | @remove heap after id cell pending removed found last rest ih =>
    obtain ⟨once, present⟩ := ih
    -- what is removed later is still there once the first object is gone
    have there (other : ObjectId) (member : other ∈ removed) :
        id ≠ other ∧ ∃ value, heap.value? other = some value := by
      obtain ⟨value, kept⟩ := present other member
      rw [value?_forget_with] at kept
      split at kept
      case isTrue => cases kept
      case isFalse apart => exact ⟨apart, value, kept⟩
    refine ⟨List.nodup_cons.2 ⟨fun member => (there id member).1 rfl, once⟩, ?_⟩
    rw [List.forall_mem_cons]
    refine ⟨⟨cell.value, ?_⟩, fun other member => (there other member).2⟩
    rw [Heap.value?, found, Option.map_some]
  | keep found more rest ih =>
    rw [value?_recount] at ih
    exact ih

/-- The counts stay exact. -/
theorem accounted (cascade : Cascade heap pending removed after)
    (before : heap.Accounted (owners + ↑pending) fresh handles) :
    after.Accounted owners fresh handles := by
  induction cascade with
  | done => simpa using before
  | remove found last rest ih => exact ih (before.remove found last)
  | keep found more rest ih => exact ih (before.keep found more)

end Cascade

/-! ## The least set of abandoned objects -/

/-- A set with every object that has no owner and all of whose occurrences are in arrays of the set. -/
def Abandons (heap : Heap) (owners : Multiset ObjectId) (ids : Set ObjectId) : Prop :=
  ∀ id, heap.contains id → id ∉ owners → (∀ holder, heap.Refers holder id → holder ∈ ids) → id ∈ ids

/-- The references of an object that is left come from an owner or from an array that is left. -/
theorem Cascade.abandons (cascade : Cascade heap pending removed after)
    (before : heap.Accounted (owners + ↑pending) ∅ handles) :
    heap.Abandons owners {id | id ∈ removed} := by
  intro id live unowned holders
  by_contra stays
  change id ∉ removed at stays
  have accounted := cascade.accounted before
  obtain ⟨value, stored⟩ := contains_iff_value?.1 live
  -- were it left, it would still have a reference, which no owner accounts for
  have left : after.value? id = some value := by rw [cascade.value?, if_neg stays, stored]
  obtain ⟨cell, found, -⟩ := Option.map_eq_some_iff.1 left
  have positive : cell.references ≠ 0 := fun zero =>
    accounted.settled id (by rw [refCount?, found, Option.map_some, zero])
  rw [accounted.references_eq found, Multiset.count_eq_zero_of_notMem unowned, Nat.zero_add] at positive
  obtain ⟨holder, items, kept, child⟩ :=
    refers_of_mem_contained (Multiset.count_pos.1 (Nat.pos_of_ne_zero positive))
  -- the holder of that reference is left too, against the assumption on holders
  rw [cascade.value?] at kept
  split at kept
  case isTrue => cases kept
  case isFalse holderStays => exact holderStays (holders holder ⟨items, kept, child⟩)

/-- An object is removed when its last reference is a pending one: then it has no owner, and the arrays
that held it at first were removed before it. -/
theorem Cascade.mem_of_abandons {origin : Heap} (cascade : Cascade heap pending removed after)
    (before : heap.Accounted (owners + ↑pending) ∅ handles) (abandons : origin.Abandons owners ids)
    (since : ∀ id, heap.value? id = origin.value? id ∨ heap.value? id = none ∧ id ∈ ids) :
    ∀ id ∈ removed, id ∈ ids := by
  -- of every object, either its first value is still there or it has been removed into the set
  induction cascade with
  | done => simp
  | @remove heap after id cell pending removed found last rest ih =>
    -- the pending reference is the only one
    have counted := before.references_eq found
    have one : 0 < Multiset.count id (↑(id :: pending) : Multiset ObjectId) := by simp
    rw [Multiset.count_add] at counted
    have unowned : id ∉ owners := Multiset.count_eq_zero.1 (by omega)
    have unheld : id ∉ heap.contained := Multiset.count_eq_zero.1 (by omega)
    have stored : heap.value? id = some cell.value := by rw [Heap.value?, found, Option.map_some]
    have abandoned : id ∈ ids := by
      rcases since id with same | ⟨-, member⟩
      · apply abandons id (contains_iff_value?.2 ⟨cell.value, same ▸ stored⟩) unowned
        rintro holder ⟨items, held, child⟩
        rcases since holder with same | ⟨-, member⟩
        · exact absurd (mem_contained_of_refers ⟨items, same.trans held, child⟩) unheld
        · exact member
      · exact member
    rw [List.forall_mem_cons]
    refine ⟨abandoned, ih (before.remove found last) fun other => ?_⟩
    rw [value?_forget_with]
    by_cases same : id = other
    · exact .inr ⟨if_pos same, same ▸ abandoned⟩
    · rw [if_neg same]
      exact since other
  | keep found more rest ih =>
    refine ih (before.keep found more) ?_
    rw [value?_recount]
    exact since

/-- A release ends and removes exactly the objects that have lost their last owner and whose other
references, if there are any, come from removed arrays. Each is removed once, all other values stay,
and the counts are exact again. -/
theorem release_removes_abandoned (exact : heap.Exact (id ::ₘ owners)) :
    ∃ after removed, release id heap = .ok () after ∧ heap.Cascade [id] removed after ∧
      removed.Nodup ∧ IsLeast {ids | heap.Abandons owners ids} {id | id ∈ removed} ∧
      (∀ other, after.value? other = if other ∈ removed then none else heap.value? other) ∧
      after.Exact owners := by
  have accounted : heap.Accounted (owners + ↑[id]) ∅ ⟨fun _ _ => True, 0⟩ :=
    (exact_iff.1 exact).of_eq (by rw [Multiset.coe_singleton, add_comm, Multiset.singleton_add])
  obtain ⟨after, drained, -⟩ := exists_drain_eq_ok _ _ _ accounted (Nat.lt_succ_self _)
  obtain ⟨removed, cascade⟩ := exists_cascade_of_drain drained
  have least (ids : Set ObjectId) (abandons : heap.Abandons owners ids) : ∀ id ∈ removed, id ∈ ids :=
    cascade.mem_of_abandons accounted abandons fun _ => .inl rfl
  exact ⟨after, removed, (release_run exact.isOpen).trans drained, cascade, cascade.nodup.1,
    ⟨cascade.abandons accounted, least⟩, cascade.value?, exact_iff.2 (cascade.accounted accounted)⟩

/-- Objects 0 to 3: a plain one, an array that holds it twice, an array that holds that one twice, and an
array that holds itself and the first. -/
def entangled : Heap where
  cells := #[some ⟨4, .null⟩,
    some ⟨2, .array (ScriptArray.empty.insert .null ⟨0, 0⟩)⟩,
    some ⟨1, .array (ScriptArray.empty.insert (.identity 1) ⟨1, 1⟩)⟩,
    some ⟨1, .array (ScriptArray.empty.insert (.identity 3) ⟨3, 0⟩)⟩]
  references := 8
  closed := false

/-- The arrays 2 and 1 go, one after the other. The array on the cycle stays, with what it holds. -/
theorem entangled_release : entangled.Exact (2 ::ₘ {0}) ∧
    ∃ after removed, release 2 entangled = .ok () after ∧ entangled.Cascade [2] removed after ∧
      removed.Nodup ∧ IsLeast {ids | entangled.Abandons {0} ids} {id | id ∈ removed} ∧
      (∀ other, after.value? other = if other ∈ removed then none else entangled.value? other) ∧
      after.Exact {0} := by
  have exact : entangled.Exact (2 ::ₘ {0}) := by
    refine ⟨rfl, rfl, fun id cell found => ?_, fun id => ?_⟩
    · match id with
      | 0 | 1 | 2 | 3 =>
        cases found
        decide
      | id + 4 => cases found
    · have contained : entangled.contained = {0, 0, 1, 1, 3, 0} := rfl
      rw [contained]
      match id with
      | 0 | 1 | 2 | 3 => decide
      | id + 4 =>
        simp [entangled, refCount?, cell?]
  exact ⟨exact, release_removes_abandoned exact⟩

end Terrain.Heap
