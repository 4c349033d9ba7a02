import Terrain.Proofs.Machine.Run

/-!
# Exact reference counts

In every state of a run the count of an object is the number of places that refer to it: operands,
bindings of all scopes, entries of arrays, and the machine itself for the null object.

* `Machine.owners` — the number of places that refer to an object.
* `Machine.reachable_counts_exact` — the counts of a run.
-/

namespace Terrain.Machine

/-- All bindings: the global ones and those in the blocks of all calls. -/
def bindings (machine : Machine) : List Binding :=
  machine.globals.items.map (·.2) ++ machine.calls.entries.flatMap fun call =>
    call.blocks.entries.flatMap fun block => block.locals.items.map (·.2)

def entryObjects (machine : Machine) : List ObjectId :=
  machine.heap.toList.flatMap fun (_, cell) => cell.value.children

/-- Number of places that refer to an object. -/
def owners (machine : Machine) (id : ObjectId) : Nat :=
  machine.operands.items.count id + machine.bindings.countP (·.value == id) +
    machine.entryObjects.count id + if id = machine.null then 1 else 0

def isCountBreach : Breach → Bool
  | .notRegistered _ | .noReference _ | .liveReferences .. => true
  | _ => false

theorem isBookkeeping_of_isCountBreach {breach : Breach} (counts : isCountBreach breach = true) :
    breach.isBookkeeping = true := by
  cases breach <;> first | rfl | cases counts

/-! ## Counting in lists -/

theorem countP_bindings (bindings : Bindings) (id : ObjectId) :
    (bindings.items.map (·.2)).countP (·.value == id) = bindings.held.count id := by
  rw [Bindings.held, Multiset.coe_count, List.count, List.countP_map, List.countP_map]
  rfl

theorem countP_blocks (id : ObjectId) : ∀ blocks : List Block,
    (blocks.flatMap fun block : Block => block.locals.items.map (·.2)).countP (·.value == id) =
      ((blocks.map fun block : Block => block.locals.held).sum).count id
  | [] => rfl
  | block :: blocks => by
    simp only [List.flatMap_cons, List.countP_append, countP_bindings, countP_blocks id blocks,
      List.map_cons, List.sum_cons, Multiset.count_add]

theorem countP_calls (id : ObjectId) : ∀ calls : List Call,
    (calls.flatMap fun call : Call => call.blocks.entries.flatMap fun block =>
        block.locals.items.map (·.2)).countP (·.value == id) =
      ((calls.map fun call : Call => call.blocks.held).sum).count id
  | [] => rfl
  | call :: calls => by
    simp only [List.flatMap_cons, List.countP_append, countP_blocks, countP_calls id calls,
      List.map_cons, List.sum_cons, Multiset.count_add, BlockStack.held]

/-- The references inside the heap, cell by cell. -/
theorem coe_flatMap_children (cells : List (Option Cell)) : ∀ start : Nat,
    (↑((cells.zipIdx start).filterMap (fun (cell, id) => cell.map fun cell => (id, cell))
        |>.flatMap fun (_, cell) => cell.value.children) : Multiset ObjectId) =
      (cells.map fun cell => (cell.map fun cell => (↑cell.value.children : Multiset ObjectId)).getD 0).sum := by
  induction cells with
  | nil => exact fun _ => rfl
  | cons cell cells ih =>
    intro start
    cases cell with
    | none => simpa using ih (start + 1)
    | some cell =>
      have rest := ih (start + 1)
      simp only [List.zipIdx_cons, List.filterMap_cons, Option.map_some, List.flatMap_cons,
        ← Multiset.coe_add, rest, List.map_cons, List.sum_cons, Option.getD_some]

theorem coe_entryObjects (machine : Machine) :
    (↑machine.entryObjects : Multiset ObjectId) = machine.heap.contained :=
  coe_flatMap_children machine.heap.cells.toList 0

/-- Between steps the machine holds all references from outside the heap. -/
theorem owners_eq {machine : Machine} (settled : machine.pending = []) (id : ObjectId) :
    machine.owners id = (machine.held + machine.heap.contained).count id := by
  unfold owners held bindings
  rw [List.countP_append, countP_bindings, countP_calls, ← coe_entryObjects, settled]
  simp only [Multiset.count_add, Multiset.coe_count, Multiset.count_singleton, CallStack.held,
    List.count_nil]
  omega

/-! ## Runs -/

/-- In every state of a run, the last step of which may have failed, every count is exact: an object
is live if something refers to it and only then, its count is the number of places that do, and no
step breaks the counting. -/
theorem reachable_counts_exact {program : Program} {machine : Machine}
    (reached : Reachable program machine) :
    (∀ id, machine.heap.contains id → machine.heap.refCount? id = some (machine.owners id)) ∧
      (∀ id, machine.heap.contains id ↔ 1 ≤ machine.owners id) ∧
      ∀ breach after, step program machine = .error (.breach breach) after →
        isCountBreach breach = false := by
  have sound := reached.sound
  have counted (id : ObjectId) : (machine.heap.refCount? id).getD 0 = machine.owners id := by
    rw [owners_eq sound.pending, sound.accounted.counts, add_zero]
  have precise (id : ObjectId) (live : machine.heap.contains id) :
      machine.heap.refCount? id = some (machine.owners id) := by
    obtain ⟨cell, found⟩ := Option.isSome_iff_exists.1 live
    rw [← counted, Heap.refCount?, found]
    rfl
  refine ⟨precise, fun id => ⟨fun live => ?_, fun owned => ?_⟩, fun breach after stepped => ?_⟩
  · -- an object without references would have to be fresh
    by_contra none
    have unreferenced := precise id live
    rw [Nat.lt_one_iff.1 (Nat.not_le.1 none)] at unreferenced
    exact sound.accounted.settled id unreferenced
  · rw [← counted] at owned
    cases count : machine.heap.refCount? id with
    | none =>
      rw [count] at owned
      cases owned
    | some _ =>
      obtain ⟨cell, found, -⟩ := Option.map_eq_some_iff.1 count
      exact Heap.contains_of_cell? found
  · have stepSound := @ends_step program _ _ _ sound
    rw [stepped] at stepSound
    cases counts : isCountBreach breach with
    | false => rfl
    | true => exact absurd (isBookkeeping_of_isCountBreach counts) (by rw [stepSound]; decide)

def idle : Program where
  script := ⟨[], [], [], [], [], [], false⟩
  parameters := .create .infinite .infinite
  limits := {}

/-- Raises a copy of a map two times, in a function with a loop, and lays it over the map itself. All the
while an array contains itself, and with it a text. The copy for a second raise is the seventh step. -/
def survey (limit : Nat) : Program where
  script := { idle.script with
    main := [(.start, .loadReference "limit"), (.start, .declareLocal "pointer" true),
      (.start, .loadVariable "Array"), (.start, .callMember "Empty" 0),
      (.start, .declareLocal "ring" false), (.start, .loadVariable "ring"),
      (.start, .loadVariable "ring"), (.start, .callMember "PushBack" 1),
      (.start, .loadText "behind"), (.start, .loadVariable "ring"),
      (.start, .callMember "PushBack" 1), (.start, .pop), (.start, .pop),
      (.start, .loadVariable "HeightMap"), (.start, .callMember "Flat" 0),
      (.start, .declareLocal "map" true), (.start, .loadVariable "map"),
      (.start, .callGlobal "Raised" 1), (.start, .declareLocal "raised" false),
      (.start, .loadVariable "map"), (.start, .loadVariable "raised"),
      (.start, .callMember "AddMap" 1), (.start, .yieldMain), (.start, .loadVariable "map"),
      (.start, .callGlobal "Raised" 1), (.start, .pop)]
    functions := [("Raised", ⟨["map"],
      [(.start, .loadVariable "map"), (.start, .loadVariable "HeightMap"),
        (.start, .callMember "Clone" 1), (.start, .declareLocal "copy" true),
        (.start, .loop
          [(.start, .loadReference "rounds"), (.start, .callGlobal "++pre" 1),
            (.start, .loadVariable "limit"), (.start, .callGlobal ">" 2),
            (.start, .ifElse [(.start, .breakLoop 2)]
              [(.start, .loadNumber 0.25), (.start, .loadVariable "copy"),
                (.start, .callMember "Add" 1), (.start, .pop)])]),
        (.start, .loadVariable "copy"), (.start, .returnCall)]⟩)]
    globals := [⟨"rounds", false, .number 0⟩, ⟨"limit", true, .number 2⟩] }
  parameters := { idle.parameters with renderWidth := 2, renderHeight := 1 }
  limits := { steps := limit }

/-- The map (13) is bound in both calls. In the branch of the loop its copy (14) is bound and an operand;
after the step that fails, the array (9) is bound and contains itself. -/
theorem survey_counts_exact : ∃ inside ended, Reachable (survey 6) inside ∧ Reachable (survey 6) ended ∧
    (inside.status = .ready ∧ inside.calls.size = 2 ∧ inside.operands.items = [14, 24]) ∧
    inside.owners 13 = 2 ∧ inside.owners 14 = 2 ∧
    (∀ breach after, step (survey 6) inside = .error (.breach breach) after →
      isCountBreach breach = false) ∧
    (ended.status = .faulted ∧ ended.calls.size = 2 ∧ ended.sequence.size = 6) ∧
    ended.owners 9 = 2 ∧ ∀ id, ended.heap.contains id ↔ 1 ≤ ended.owners id := by
  -- in the branch of the loop, where the first call is about to raise the copy
  obtain ⟨inside, reached, within, map, copy⟩ : ∃ machine, Reachable (survey 6) machine ∧
      (machine.status = .ready ∧ machine.calls.size = 2 ∧ machine.operands.items = [14, 24]) ∧
      machine.heap.refCount? 13 = some 2 ∧ machine.heap.refCount? 14 = some 2 :=
    exists_reachable 39 (by decide +kernel)
  -- behind the last step, which the limit of recorded steps has refused
  obtain ⟨ended, reachedEnd, failed, ring⟩ : ∃ machine, Reachable (survey 6) machine ∧
      (machine.status = .faulted ∧ machine.calls.size = 2 ∧ machine.sequence.size = 6) ∧
      machine.heap.refCount? 9 = some 2 :=
    exists_reachable 59 (by decide +kernel)
  obtain ⟨exact, -, sound⟩ := reachable_counts_exact reached
  obtain ⟨exactEnd, live, -⟩ := reachable_counts_exact reachedEnd
  have owners {machine : Machine} {id : ObjectId} (count : machine.heap.refCount? id = some 2)
      (exact : machine.heap.contains id → machine.heap.refCount? id = some (machine.owners id)) :
      machine.owners id = 2 := by
    have live : machine.heap.contains id = true := by
      obtain ⟨cell, found, -⟩ := Option.map_eq_some_iff.1 count
      exact Heap.contains_of_cell? found
    exact (Option.some_inj.1 (count.symm.trans (exact live))).symm
  exact ⟨inside, ended, reached, reachedEnd, within, owners map (exact 13), owners copy (exact 14), sound,
    failed, owners ring (exactEnd 9), live⟩

end Terrain.Machine
