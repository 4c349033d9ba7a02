import Mathlib.Data.Fintype.Pigeonhole
import Mathlib.Data.Set.Finite.Basic
import Mathlib.Logic.Relation
import Terrain.Proofs.Control.Evaluation
import Terrain.Proofs.Machine.References

/-!
# What disposing of a machine leaves

A machine that is disposed of drops every reference it holds. Objects that are left then are held by
arrays that are left as well, so that each of them lies behind a cycle of arrays: going from holder to
holder comes back to an object already met. Conversely the objects on and behind a cycle hold each
other, and no release takes them away.

* `Heap.OnCycle`, `Heap.Cyclic` — objects on a cycle of arrays, and those behind one.
* `Heap.Drops` — an action that gives references back.
* `Machine.dispose_counts_cyclic` — disposal counts the objects on and behind cycles.
-/

namespace Terrain

namespace Heap

/-! ## Cycles -/

/-- An array that contains itself, directly or through other arrays. -/
def OnCycle (heap : Heap) (id : ObjectId) : Prop := Relation.TransGen heap.Refers id id

/-- An object on a cycle of arrays, or contained in an array on one, directly or through other
arrays. -/
def Cyclic (heap : Heap) (id : ObjectId) : Prop :=
  ∃ array, heap.OnCycle array ∧ Relation.ReflTransGen heap.Refers array id

section Cycles

variable {heap : Heap} {id : ObjectId}

/-- Going back from an object behind a cycle stays behind the cycle, all around it. -/
theorem supports_cyclic (heap : Heap) : heap.Supports {id | heap.Cyclic id} := by
  rintro id ⟨array, cycle, path⟩
  rcases Relation.ReflTransGen.cases_tail path with rfl | ⟨holder, before, refers⟩
  · obtain ⟨holder, before, refers⟩ := Relation.TransGen.tail'_iff.1 cycle
    exact ⟨holder, ⟨id, cycle, before⟩, refers⟩
  · exact ⟨holder, ⟨array, cycle, before⟩, refers⟩

/-- In a finite set that supports itself, every object lies behind a cycle. -/
theorem cyclic_of_supports {ids : Set ObjectId} (finite : ids.Finite) (supports : heap.Supports ids)
    (member : id ∈ ids) : heap.Cyclic id := by
  choose holder inside refers using supports
  let back (item : ids) : ids := ⟨holder item item.2, inside item item.2⟩
  let chain (steps : Nat) : ids := back^[steps] ⟨id, member⟩
  have link (steps : Nat) : heap.Refers (chain (steps + 1)) (chain steps) := by
    have shape : chain (steps + 1) = back (chain steps) := Function.iterate_succ_apply' _ _ _
    rw [shape]
    exact refers _ _
  have path (steps more : Nat) :
      Relation.ReflTransGen heap.Refers (chain (steps + more)) (chain steps) := by
    induction more with
    | zero => exact .refl
    | succ more ih => exact .head (link (steps + more)) ih
  -- a chain of holders in a finite set meets one of them twice
  have : Finite ids := finite
  obtain ⟨first, second, apart, same⟩ := Finite.exists_ne_map_eq_of_infinite chain
  wlog order : first < second generalizing first second
  · exact this second first apart.symm same.symm (by omega)
  obtain ⟨more, rfl⟩ : ∃ more, second = first + 1 + more := ⟨second - first - 1, by omega⟩
  have around := Relation.TransGen.tail' (path (first + 1) more) (link first)
  rw [← same] at around
  have reached := path 0 first
  rw [Nat.zero_add] at reached
  exact ⟨chain first, around, reached⟩

theorem contains_of_refers {holder : ObjectId} (refers : heap.Refers holder id) :
    heap.contains holder :=
  let ⟨value, found, _⟩ := refers
  contains_iff_value?.2 ⟨value, found⟩

def live (heap : Heap) : Finset ObjectId :=
  (Finset.range heap.cells.size).filter fun id => heap.contains id

theorem mem_live : id ∈ heap.live ↔ heap.contains id := by
  simp only [live, Finset.mem_filter, Finset.mem_range, and_iff_right_iff_imp]
  intro contained
  obtain ⟨cell, found⟩ := Option.isSome_iff_exists.1 contained
  exact lt_size_of_cell? found

theorem card_live (heap : Heap) : heap.live.card = heap.liveCount := by
  have counted (cells : List (Option Cell)) :
      ((Finset.range cells.length).filter fun id => cells[id]?.join.isSome).card =
        cells.foldl (fun count cell => if cell.isSome then count + 1 else count) 0 := by
    induction cells using List.reverseRecOn with
    | nil => rfl
    | append_singleton cells cell ih =>
      rw [List.length_append, List.length_singleton, Finset.range_add_one, Finset.filter_insert,
        List.foldl_append, ← ih]
      have before : (Finset.range cells.length).filter (fun id => (cells ++ [cell])[id]?.join.isSome) =
          (Finset.range cells.length).filter fun id => cells[id]?.join.isSome := by
        refine Finset.filter_congr fun id member => ?_
        rw [List.getElem?_append_left (Finset.mem_range.1 member)]
      rw [before]
      cases cell <;> simp
  have whole := counted heap.cells.toList
  rw [Array.foldl_toList, Array.length_toList] at whole
  rw [liveCount, ← whole]
  exact congrArg Finset.card (Finset.filter_congr fun id _ => by simp [contains, cell?])

/-- Once no references are held from outside, what is left are the objects on and behind cycles. -/
theorem Remains.contains_iff_cyclic {handles : Handles} {after : Heap} (remains : heap.Remains after)
    (accounted : after.Accounted 0 ∅ handles) : after.contains id ↔ heap.Cyclic id := by
  constructor
  · intro contained
    have supports : after.Supports {id | after.contains id} := by
      intro id contained
      -- a live object has a reference, and it can only come from an array
      obtain ⟨cell, found⟩ := Option.isSome_iff_exists.1 contained
      have positive : 0 < cell.references := by
        refine Nat.pos_of_ne_zero fun none => accounted.settled id ?_
        rw [refCount?, found, Option.map_some, none]
      rw [accounted.references_eq found, Multiset.count_zero, Nat.zero_add] at positive
      obtain ⟨holder, refers⟩ := refers_of_mem_contained (Multiset.count_pos.1 positive)
      exact ⟨holder, contains_of_refers refers, refers⟩
    have finite : {id | after.contains id}.Finite :=
      after.live.finite_toSet.subset fun id contained => mem_live.2 contained
    have referred (holder id : ObjectId) : after.Refers holder id → heap.Refers holder id := by
      rintro ⟨value, found, child⟩
      exact ⟨value, remains.values holder value found, child⟩
    obtain ⟨array, cycle, path⟩ := cyclic_of_supports finite supports contained
    exact ⟨array, Relation.TransGen.mono referred _ _ cycle, Relation.ReflTransGen.mono referred _ _ path⟩
  · intro cyclic
    obtain ⟨holder, -, refers⟩ := remains.supported _ heap.supports_cyclic id cyclic
    obtain ⟨cell, found, -⟩ :=
      accounted.live_of_mem_add (Multiset.mem_add.2 (.inr (mem_contained_of_refers refers)))
    exact contains_of_cell? found

end Cycles

end Heap

namespace Machine

variable {program : Program} {machine : Machine}

/-! ## Giving everything back -/

/-- Disposal ends, and counts what is left when all references of the machine are given back. -/
theorem exists_dispose_eq_ok {handles : Heap.Handles} (program : Program)
    (accounted : machine.heap.Accounted machine.held ∅ handles) :
    ∃ heap after, dispose program machine = .ok heap.liveCount after ∧
      heap.Accounted 0 ∅ handles ∧ machine.heap.Remains heap := by
  have parts : machine.held = ↑(machine.operands.items.take (machine.operands.size - 0)) +
      (machine.calls.held + (machine.globals.held + (↑machine.pending + ({machine.null} + 0)))) := by
    rw [held, Nat.sub_zero, OperandStack.size, List.take_length]
    abel
  rw [parts] at accounted
  obtain ⟨first, popped, accounted, remains⟩ := exists_truncate_eq_ok program accounted
  obtain ⟨second, left, accounted, after⟩ := machine.calls.drops_releaseAll _ _ _ _ accounted
  have remains := remains.trans after
  obtain ⟨third, cleared, accounted, after⟩ := machine.globals.drops_releaseAll _ _ _ _ accounted
  have remains := remains.trans after
  obtain ⟨fourth, settled, accounted, after⟩ := Heap.drops_releaseAll machine.pending _ _ _ _ accounted
  have remains := remains.trans after
  obtain ⟨fifth, released, accounted, after⟩ := Heap.drops_release machine.null _ _ _ _ accounted
  have remains := remains.trans after
  refine ⟨fifth, ?after, ?run, accounted, remains⟩
  case run =>
    refine (run_bind_of_eq_ok popped).trans ?_
    refine (run_onHeap_bind left).trans ?_
    refine (run_onHeap_bind cleared).trans ?_
    refine (run_onHeap_bind settled).trans ?_
    refine (run_onHeap_bind released).trans ?_
    rfl

/-- Disposing of a machine that a run has reached counts the objects that lie on a cycle of arrays or
are contained in an array on one. -/
theorem dispose_counts_cyclic (reached : Reachable program machine) :
    ∃ (lost : Finset ObjectId) (after : Machine), (∀ id, id ∈ lost ↔ machine.heap.Cyclic id) ∧
      dispose program machine = .ok lost.card after ∧
      ((∀ id, ¬machine.heap.OnCycle id) → lost.card = 0) := by
  have accounted := reached.sound.accounted
  rw [add_zero] at accounted
  obtain ⟨heap, after, run, accounted, remains⟩ := exists_dispose_eq_ok program accounted
  have lost (id : ObjectId) : id ∈ heap.live ↔ machine.heap.Cyclic id :=
    Heap.mem_live.trans (remains.contains_iff_cyclic accounted)
  refine ⟨heap.live, after, lost, heap.card_live ▸ run, fun acyclic => ?_⟩
  refine Finset.card_eq_zero.2 (Finset.eq_empty_of_forall_notMem fun id member => ?_)
  obtain ⟨array, cycle, -⟩ := (lost id).1 member
  exact acyclic array cycle

/-- When the survey has failed, the array (9) still contains itself. Disposal finds it with its two keys and
with the text (11), which is on no cycle. -/
theorem survey_dispose_counts_cyclic : ∃ (machine after : Machine) (lost : Finset ObjectId),
    Reachable (survey 6) machine ∧ machine.status = .faulted ∧ machine.heap.OnCycle 9 ∧
    ¬machine.heap.OnCycle 11 ∧ 11 ∈ lost ∧ (∀ id, id ∈ lost ↔ machine.heap.Cyclic id) ∧
    dispose (survey 6) machine = .ok 4 after ∧ lost.card = 4 := by
  obtain ⟨machine, reached, faulted, ring, text, disposed⟩ : ∃ machine, Reachable (survey 6) machine ∧
      machine.status = .faulted ∧ (machine.heap.value? 9).map Value.children = some [10, 9, 12, 11] ∧
      (machine.heap.value? 11).map Value.children = some [] ∧
      (Upshot.ended? (dispose (survey 6) machine)).map Prod.fst = some 4 :=
    exists_reachable 59 (by decide +kernel)
  obtain ⟨lost, after, isLost, ran, -⟩ := dispose_counts_cyclic reached
  rw [ran] at disposed
  have card : lost.card = 4 := Option.some_inj.1 disposed
  obtain ⟨items, found, children⟩ := Option.map_eq_some_iff.1 ring
  have refers (id : ObjectId) (member : id ∈ [10, 9, 12, 11]) : machine.heap.Refers 9 id :=
    ⟨items, found, children ▸ member⟩
  have cycle : machine.heap.OnCycle 9 := .single (refers 9 (by decide))
  refine ⟨machine, after, lost, reached, faulted, cycle, ?_, ?_, isLost, card ▸ ran, card⟩
  · -- a text refers to nothing, so that no way leads back to it
    intro cycle
    obtain ⟨_, ⟨value, found, child⟩, -⟩ := Relation.TransGen.head'_iff.1 cycle
    rw [found] at text
    rw [Option.some_inj.1 text] at child
    cases child
  · exact (isLost 11).2 ⟨9, cycle, .single (refers 11 (by decide))⟩

end Machine

end Terrain
