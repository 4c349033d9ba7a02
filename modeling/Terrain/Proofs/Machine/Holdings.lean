import Terrain.Machine.Control
import Terrain.Machine.Variables
import Terrain.Proofs.Machine.Scopes
import Terrain.Proofs.Plan.WellFormed

/-!
# Holdings of the machine

The machine holds references in its operands, in the scopes of its calls, in its global scope, in the
list of references a native call has handed over, and one to the null object. An action in progress
may hold more. `Machine.Sound` says that the counts of the heap agree with all of these, that raster
handles have slots filled by recorded steps, and that the recorded steps are well-formed.

* `Machine.held`, `Machine.handles` — what the machine holds and which raster handles it knows.
* `Machine.Sound` — the invariant, with what an action in progress holds beside the machine.
* `Machine.ends_push`, `Machine.ends_leaveCall`, `Machine.ends_assign`, … — the elementary actions.
-/

namespace Terrain

def SlotTable.floor (table : SlotTable) : Nat :=
  (table.slots.map fun entry => entry.1 + 1).foldr max 0

theorem SlotTable.floor_le_iff {table : SlotTable} {bound : Nat} :
    table.floor ≤ bound ↔ ∀ entry ∈ table.slots, entry.1 < bound := by
  unfold floor
  induction table.slots with
  | nil => simp
  | cons entry entries ih =>
    simp only [List.map_cons, List.foldr_cons, List.forall_mem_cons, Nat.max_le, ih]
    exact Iff.rfl

namespace Machine

/-- References the machine holds. -/
def held (machine : Machine) : Multiset ObjectId :=
  ↑machine.operands.items + machine.calls.held + machine.globals.held + ↑machine.pending +
    {machine.null}

/-- A raster handle has a slot, which a recorded step has filled with a raster of its kind. -/
def handles (machine : Machine) : Heap.Handles where
  rasters id kind :=
    ∃ slot, machine.slots.get? id = some slot ∧ Makes machine.sequence.steps.toList slot kind
  floor := machine.slots.floor

/-- What a run has put down: the references handed over by a native call, and the recorded steps. -/
structure Ledger where
  pending : List ObjectId
  steps : Array Step

/-- The counts agree with what the machine and an action in progress (`extra`) hold, and only objects
in `fresh` may have no references. Names are in order, and the operands are within their limit. -/
structure Sound (machine : Machine) (ledger : Ledger) (extra : Multiset ObjectId)
    (fresh : Set ObjectId) : Prop where
  accounted : machine.heap.Accounted (machine.held + extra) fresh machine.handles
  globals : machine.globals.Ordered
  calls : machine.calls.Ordered
  room : machine.operands.size ≤ machine.operands.limit
  recorded : machine.sequence.WellFormed
  pending : machine.pending = ledger.pending
  steps : machine.sequence.steps = ledger.steps

variable {α : Type} {program : Program} {machine : Machine} {ledger : Ledger}
  {extra : Multiset ObjectId} {fresh : Set ObjectId} {id : ObjectId}

namespace Sound

theorem of_eq (sound : machine.Sound ledger extra fresh) {extra' : Multiset ObjectId}
    (same : extra = extra') : machine.Sound ledger extra' fresh :=
  same ▸ sound

theorem mono (sound : machine.Sound ledger extra fresh) {fresh' : Set ObjectId}
    (more : fresh ⊆ fresh') : machine.Sound ledger extra fresh' :=
  { sound with accounted := sound.accounted.mono more }

theorem live (sound : machine.Sound ledger extra fresh) (member : id ∈ extra) :
    machine.heap.contains id :=
  sound.accounted.contains (Multiset.mem_add.2 (.inr member))

theorem live_of_mem_held (sound : machine.Sound ledger extra fresh) (member : id ∈ machine.held) :
    machine.heap.contains id :=
  sound.accounted.contains (Multiset.mem_add.2 (.inl member))

theorem null_live (sound : machine.Sound ledger extra fresh) : machine.heap.contains machine.null :=
  sound.live_of_mem_held (Multiset.mem_add.2 (.inr (Multiset.mem_singleton_self _)))

theorem room_drop (sound : machine.Sound ledger extra fresh) (count : Nat) :
    (machine.operands.items.drop count).length ≤ machine.operands.limit := by
  rw [List.length_drop]
  exact Nat.le_trans (Nat.sub_le _ _) sound.room

/-- Another heap, accounted for in the same way. -/
theorem withHeap (sound : machine.Sound ledger extra fresh) {heap : Heap}
    {extra' : Multiset ObjectId} {fresh' : Set ObjectId}
    (accounted : heap.Accounted (machine.held + extra') fresh' machine.handles) :
    { machine with heap }.Sound ledger extra' fresh' :=
  { sound with accounted }

/-- Other operands; the difference goes to or comes from the action in progress. -/
theorem withOperands (sound : machine.Sound ledger extra fresh) {operands : OperandStack}
    {extra' : Multiset ObjectId} (room : operands.size ≤ operands.limit)
    (exchange : ↑machine.operands.items + extra = ↑operands.items + extra') :
    { machine with operands }.Sound ledger extra' fresh := by
  refine { sound with accounted := sound.accounted.of_eq ?_, room }
  calc machine.held + extra
      = ↑machine.operands.items + extra + (machine.calls.held + machine.globals.held +
          ↑machine.pending + {machine.null}) := by unfold held; abel
    _ = ↑operands.items + extra' + (machine.calls.held + machine.globals.held +
          ↑machine.pending + {machine.null}) := by rw [exchange]
    _ = _ := by unfold held; abel

/-- Other calls; the difference goes to or comes from the action in progress. -/
theorem withCalls (sound : machine.Sound ledger extra fresh) {calls : CallStack}
    {extra' : Multiset ObjectId} (ordered : calls.Ordered)
    (exchange : machine.calls.held + extra = calls.held + extra') :
    { machine with calls }.Sound ledger extra' fresh := by
  refine { sound with accounted := sound.accounted.of_eq ?_, calls := ordered }
  calc machine.held + extra
      = machine.calls.held + extra + (↑machine.operands.items + machine.globals.held +
          ↑machine.pending + {machine.null}) := by unfold held; abel
    _ = calls.held + extra' + (↑machine.operands.items + machine.globals.held +
          ↑machine.pending + {machine.null}) := by rw [exchange]
    _ = _ := by unfold held; abel

end Sound

/-! ## The heap of a machine -/

section HeapActions

variable {refused : Machine → Prop}

theorem ends_release (sound : machine.Sound ledger (id ::ₘ extra) fresh) :
    Ends (onHeap (Heap.release id) program machine) (fun _ machine => machine.Sound ledger extra fresh)
      refused := by
  have accounted : machine.heap.Accounted (id ::ₘ (machine.held + extra)) fresh machine.handles :=
    sound.accounted.of_eq (Multiset.add_cons _ _ _)
  exact ends_onHeap ((Heap.ends_release accounted).imp (fun _ _ accounted => sound.withHeap accounted)
    fun _ => False.elim)

theorem ends_releaseAll {ids : List ObjectId} (sound : machine.Sound ledger (↑ids + extra) fresh) :
    Ends (onHeap (Heap.releaseAll ids) program machine)
      (fun _ machine => machine.Sound ledger extra fresh) refused := by
  have accounted : machine.heap.Accounted (↑ids + (machine.held + extra)) fresh machine.handles :=
    sound.accounted.of_eq (by abel)
  exact ends_onHeap ((Heap.ends_releaseAll _ _ accounted).imp
    (fun _ _ accounted => sound.withHeap accounted) fun _ => False.elim)

theorem ends_addRef (sound : machine.Sound ledger extra fresh) (live : machine.heap.contains id) :
    Ends (onHeap (Heap.addRef id) program machine)
      (fun _ machine => machine.Sound ledger (id ::ₘ extra) (fresh \ {id})) refused := by
  refine ends_onHeap ((Heap.ends_addRef sound.accounted live).imp ?_ fun _ => False.elim)
  rintro - heap ⟨accounted, -⟩
  exact sound.withHeap (accounted.of_eq (Multiset.add_cons _ _ _).symm)

theorem ends_register (sound : machine.Sound ledger extra fresh) {value : Value}
    (plain : value.IsPlain) :
    Ends (onHeap (Heap.register value) program machine)
      (fun id machine => machine.Sound ledger extra (insert id fresh) ∧
        machine.heap.cell? id = some ⟨0, value⟩) refused := by
  refine ends_onHeap ((Heap.ends_register sound.accounted plain).imp ?_ fun _ => False.elim)
  rintro id heap ⟨accounted, stored, -⟩
  exact ⟨sound.withHeap accounted, stored⟩

theorem ends_destroyIfUnreferenced (sound : machine.Sound ledger extra fresh) :
    Ends (onHeap (Heap.destroyIfUnreferenced id) program machine)
      (fun _ machine => machine.Sound ledger extra (fresh \ {id})) refused :=
  ends_onHeap ((Heap.ends_destroyIfUnreferenced sound.accounted).imp
    (fun _ _ accounted => sound.withHeap accounted) fun _ => False.elim)

end HeapActions

/-! ## Operands -/

/-- A push for which there is room. -/
theorem ends_pushRoom {location : Location} {refused : Machine → Prop}
    (sound : machine.Sound ledger extra fresh) (live : machine.heap.contains id)
    (room : machine.operands.size < machine.operands.limit) :
    Ends (push id location program machine)
      (fun _ machine => machine.Sound ledger extra (fresh \ {id})) refused := by
  unfold push
  refine ends_get (ends_bind (ends_onHeap ?_))
  unfold OperandStack.push
  rw [if_neg (Nat.not_le.2 room)]
  refine Ends.bind ((Heap.ends_addRef sound.accounted live).weaken.then ?_)
  rintro - heap ⟨accounted, -⟩
  have counted : { machine with heap }.Sound ledger (id ::ₘ extra) (fresh \ {id}) :=
    sound.withHeap (accounted.of_eq (Multiset.add_cons _ _ _).symm)
  refine counted.withOperands room ?_
  rw [← Multiset.cons_coe, Multiset.add_cons, Multiset.cons_add]

/-- A push that fails changes nothing. -/
theorem ends_push {location : Location} (sound : machine.Sound ledger extra fresh)
    (live : machine.heap.contains id) :
    Ends (push id location program machine)
      (fun _ machine => machine.Sound ledger extra (fresh \ {id})) (· = machine) := by
  by_cases room : machine.operands.size < machine.operands.limit
  · exact ends_pushRoom sound live room
  · unfold push
    refine ends_get (ends_bind (ends_onHeap ?_))
    unfold OperandStack.push
    rw [if_pos (Nat.not_lt.1 room)]
    exact Ends.bind rfl

/-- A pop leaves room for a push. -/
theorem ends_popRoom (sound : machine.Sound ledger extra fresh) :
    Ends (pop program machine)
      (fun id machine => machine.Sound ledger (id ::ₘ extra) fresh ∧
        machine.operands.size < machine.operands.limit)
      (· = machine) := by
  refine ends_get (ends_bind (ends_orRaise rfl ?_))
  rintro ⟨id, operands⟩ popped
  unfold OperandStack.pop at popped
  split at popped
  case h_1 first items shape =>
    cases popped
    have room := sound.room
    rw [OperandStack.size, shape, List.length_cons] at room
    refine ⟨sound.withOperands (Nat.le_of_lt room) ?_, room⟩
    rw [shape, ← Multiset.cons_coe, Multiset.cons_add, Multiset.add_cons]
  case h_2 => cases popped

theorem ends_pop (sound : machine.Sound ledger extra fresh) :
    Ends (pop program machine) (fun id machine => machine.Sound ledger (id ::ₘ extra) fresh)
      (· = machine) :=
  (ends_popRoom sound).then fun _ _ popped => popped.1

theorem ends_take {count : Nat} (sound : machine.Sound ledger extra fresh) :
    Ends (take count program machine) (fun ids machine => machine.Sound ledger (↑ids + extra) fresh)
      (· = machine) := by
  refine ends_get (ends_bind (ends_orRaise rfl ?_))
  rintro ⟨ids, operands⟩ taken
  unfold OperandStack.take OperandStack.checkSize at taken
  split at taken
  case isTrue => cases taken
  case isFalse =>
    cases taken
    refine sound.withOperands (sound.room_drop count) ?_
    have whole := congrArg (Multiset.ofList) (List.take_append_drop count machine.operands.items)
    rw [← whole, Multiset.coe_reverse, ← Multiset.coe_add]
    abel

theorem ends_truncate {height : Nat} {refused : Machine → Prop}
    (sound : machine.Sound ledger extra fresh) :
    Ends (truncate height program machine) (fun _ machine => machine.Sound ledger extra fresh)
      refused := by
  refine ends_get (ends_bind (ends_onHeap ?_))
  unfold OperandStack.truncate
  generalize machine.operands.size - height = above
  have whole := congrArg (Multiset.ofList) (List.take_append_drop above machine.operands.items)
  rw [← Multiset.coe_add] at whole
  have apart := @Sound.withOperands _ _ _ _ sound
    { machine.operands with items := machine.operands.items.drop above }
    (↑(machine.operands.items.take above) + extra) (sound.room_drop above) (by rw [← whole]; abel)
  have accounted := apart.accounted.of_eq
    (add_left_comm _ (↑(machine.operands.items.take above) : Multiset ObjectId) extra)
  refine Ends.bind ((Heap.ends_releaseAll _ _ accounted).weaken.then fun _ heap accounted => ?_)
  exact apart.withHeap accounted

/-- Dropping the operands above a height cannot fail. -/
theorem exists_truncate_eq_ok {height : Nat} {held : Multiset ObjectId} {handles : Heap.Handles}
    (program : Program) (accounted : machine.heap.Accounted
      (↑(machine.operands.items.take (machine.operands.size - height)) + held) fresh handles) :
    ∃ heap, truncate height program machine = .ok () { machine with
        heap
        operands := { machine.operands with
          items := machine.operands.items.drop (machine.operands.size - height) } } ∧
      heap.Accounted held fresh handles ∧ machine.heap.Remains heap := by
  obtain ⟨heap, run, accounted, remains⟩ := Heap.drops_releaseAll _ _ _ _ _ accounted
  have truncated : machine.operands.truncate height machine.heap = .ok { machine.operands with
      items := machine.operands.items.drop (machine.operands.size - height) } heap := by
    change EStateM.bind (Heap.releaseAll _) _ machine.heap = _
    simp only [EStateM.bind, run]
    rfl
  exact ⟨heap, run_onHeap_bind truncated, accounted, remains⟩

/-- A new object that finds no room is gone again. -/
theorem ends_pushNew {value : Value} {location : Location} (sound : machine.Sound ledger extra ∅)
    (plain : value.IsPlain) :
    Ends (pushNew value location program machine) (fun _ machine => machine.Sound ledger extra ∅)
      (fun machine => machine.Sound ledger extra ∅) := by
  refine ends_bind ((ends_register sound plain).then ?_)
  rintro id machine ⟨sound, stored⟩
  refine ends_onError ((ends_push sound (Heap.contains_of_cell? stored)).imp ?_ ?_)
  · intro _ machine sound
    exact sound.mono (by simp)
  · rintro _ rfl
    refine ends_onHeap ((Heap.ends_destroy sound.accounted stored rfl).weaken.then ?_)
    intro _ heap accounted
    exact sound.withHeap (accounted.mono (by simp))

/-! ## Blocks -/

theorem ends_enterBlock {location : Location} {code : CodeBlock} {looping : Bool}
    (sound : machine.Sound ledger extra fresh) :
    Ends (enterBlock location code looping program machine)
      (fun _ machine => machine.Sound ledger extra fresh) (· = machine) := by
  unfold enterBlock
  refine ends_get ?_
  cases shape : machine.calls.entries with
  | nil => exact ends_raise rfl
  | cons call callers =>
    refine ends_bind (ends_orRaise rfl ?_)
    intro blocks pushed
    unfold BlockStack.push at pushed
    split at pushed
    case isTrue => cases pushed
    case isFalse =>
      cases pushed
      have own : call.blocks.Ordered := sound.calls call (shape ▸ List.mem_cons_self)
      refine sound.withCalls (sound.calls.setTopBlocks ?_) ?_
      · intro block member
        rcases List.mem_cons.1 member with rfl | member
        · exact Bindings.ordered_empty
        · exact own block member
      · have sums := @CallStack.held_setTopBlocks machine.calls call callers
          { call.blocks with entries := .start location code looping :: call.blocks.entries } shape
        rw [BlockStack.held_cons, Block.start, Bindings.held_empty, zero_add] at sums
        exact congrArg (· + extra) (add_right_cancel sums).symm

/-- Only the bottom of a stack of blocks stops it from being left. -/
theorem ends_leaveBlock (sound : machine.Sound ledger extra fresh) :
    Ends (leaveBlock program machine) (fun _ machine => machine.Sound ledger extra fresh)
      (· = machine) := by
  unfold leaveBlock
  refine ends_get ?_
  cases shape : machine.calls.entries with
  | nil => exact ends_raise rfl
  | cons call callers =>
    refine ends_bind (ends_onHeap ?_)
    have own : call.blocks.Ordered := sound.calls call (shape ▸ List.mem_cons_self)
    unfold BlockStack.pop
    cases blocks : call.blocks.entries with
    | nil => exact rfl
    | cons block outer =>
      have left := @CallStack.held_setTopBlocks machine.calls call callers
        { call.blocks with entries := outer } shape
      have split : call.blocks.held = block.locals.held +
          ({ call.blocks with entries := outer } : BlockStack).held := by
        simp [BlockStack.held, blocks]
      have apart := @Sound.withCalls _ _ _ _ sound
        (machine.calls.setTopBlocks { call.blocks with entries := outer }) (block.locals.held + extra)
        (sound.calls.setTopBlocks fun other member => own other (blocks ▸ List.mem_cons_of_mem _ member))
        (by
          rw [split, ← add_assoc] at left
          rw [← add_right_cancel left, add_assoc])
      have accounted := apart.accounted.of_eq (add_left_comm _ block.locals.held extra)
      refine Ends.bind (((Bindings.drops_releaseAll _).ends accounted).weaken.then fun _ heap accounted => ?_)
      exact apart.withHeap accounted

theorem ends_leaveBlocks : ∀ (count : Nat) (machine : Machine),
    machine.Sound ledger extra fresh →
      Ends (leaveBlocks count program machine) (fun _ machine => machine.Sound ledger extra fresh)
        (fun machine => machine.Sound ledger extra fresh)
  | 0, machine, sound => ends_pure sound
  | count + 1, machine, sound => by
    refine ends_bind ((ends_leaveBlock sound).imp ?_ ?_)
    · intro _ machine sound
      exact ends_leaveBlocks count machine sound
    · rintro _ rfl
      exact sound

theorem ends_restartBlock {refused : Machine → Prop} (sound : machine.Sound ledger extra fresh) :
    Ends (restartBlock program machine) (fun _ machine => machine.Sound ledger extra fresh)
      refused := by
  unfold restartBlock
  refine ends_get ?_
  cases top : machine.calls.topBlock? with
  | none => exact ends_pure sound
  | some block =>
    refine ends_bind (ends_onHeap ?_)
    have emptied := @CallStack.held_setTopBlock machine.calls
      { block with cursor := 0, locals := .empty } block top
    have apart := @Sound.withCalls _ _ _ _ sound
      (machine.calls.setTopBlock { block with cursor := 0, locals := .empty })
      (block.locals.held + extra) (sound.calls.setTopBlock Bindings.ordered_empty)
      (by
        rw [Bindings.held_empty, add_zero] at emptied
        rw [← emptied, add_assoc])
    have accounted := apart.accounted.of_eq (add_left_comm _ block.locals.held extra)
    refine Ends.bind (((Bindings.drops_releaseAll _).ends accounted).weaken.then fun _ heap accounted => ?_)
    exact apart.withHeap accounted

theorem answers_checkLoop (depth : Nat) :
    Answers (checkLoop depth program machine) fun _ => True := by
  unfold checkLoop
  split
  case h_1 => trivial
  case h_2 =>
    dsimp only
    split
    · trivial
    split
    · trivial
    · trivial

theorem ends_breakLoop {depth : Nat} (sound : machine.Sound ledger extra fresh) :
    Ends (breakLoop depth program machine) (fun _ machine => machine.Sound ledger extra fresh)
      (fun machine => machine.Sound ledger extra fresh) :=
  ends_bind (ends_inspect ((answers_checkLoop depth).imp fun _ _ => ends_leaveBlocks depth machine sound)
    sound)

theorem ends_continueLoop {depth : Nat} (sound : machine.Sound ledger extra fresh) :
    Ends (continueLoop depth program machine) (fun _ machine => machine.Sound ledger extra fresh)
      (fun machine => machine.Sound ledger extra fresh) := by
  refine ends_bind (ends_inspect ((answers_checkLoop depth).imp fun _ _ => ?_) sound)
  exact ends_bind ((ends_leaveBlocks (depth - 1) machine sound).then fun _ _ sound =>
    ends_restartBlock sound)

/-! ## Calls -/

theorem ends_enterCall {location : Location} {function : String} {code : CodeBlock}
    (sound : machine.Sound ledger extra fresh) :
    Ends (enterCall location function code program machine)
      (fun _ entered => entered.Sound ledger extra fresh ∧ entered.heap = machine.heap ∧
        entered.calls.topBlock? = some (.start location code false))
      (· = machine) := by
  unfold enterCall
  refine ends_read (ends_bind (ends_orRaise rfl ?_))
  intro blocks pushedBlock
  refine ends_get (ends_get (ends_bind (ends_orRaise rfl ?_)))
  intro calls pushedCall
  unfold BlockStack.push at pushedBlock
  unfold CallStack.push at pushedCall
  split at pushedBlock
  case isTrue => cases pushedBlock
  case isFalse =>
    split at pushedCall
    case isTrue => cases pushedCall
    case isFalse =>
      cases pushedBlock
      cases pushedCall
      refine ⟨sound.withCalls ?_ ?_, rfl, rfl⟩
      · intro call member
        rcases List.mem_cons.1 member with rfl | member
        · intro block member
          cases List.mem_singleton.1 member
          exact Bindings.ordered_empty
        · exact sound.calls call member
      · rw [CallStack.held_cons, BlockStack.empty, BlockStack.held_cons, Block.start]
        simp

/-- The result of a call is held by the action that leaves it. -/
theorem ends_takeResult {base : Nat} {explicit : Bool} {refused : Machine → Prop}
    (sound : machine.Sound ledger extra ∅) :
    Ends (takeResult base explicit program machine)
      (fun result machine => machine.Sound ledger (result ::ₘ extra) ∅) refused := by
  unfold takeResult
  refine ends_get ?_
  split
  case isTrue own =>
    have popped := @ends_pop program _ _ _ _ sound
    cases shape : machine.operands.items with
    | nil => simp [OperandStack.size, shape] at own
    | cons id items =>
      -- with an operand on the stack the only outcome is the first one
      have run : pop program machine =
          .ok id { machine with operands := { machine.operands with items } } := by
        have top : machine.operands.pop = .ok (id, { machine.operands with items }) := by
          simp [OperandStack.pop, shape]
        change (orRaise machine.operands.pop >>= _ : MachineM ObjectId) program machine = _
        rw [top]
        rfl
      rw [run] at popped ⊢
      exact popped
  case isFalse =>
    refine ends_get (ends_bind ((ends_addRef sound sound.null_live).then fun _ machine sound => ?_))
    exact ends_pure (sound.mono (by simp))

theorem ends_releaseBlocks {blocks : BlockStack} {refused : Machine → Prop}
    (sound : machine.Sound ledger (blocks.held + extra) fresh) :
    Ends (onHeap blocks.releaseAll program machine)
      (fun _ machine => machine.Sound ledger extra fresh) refused := by
  have accounted := sound.accounted.of_eq (add_left_comm _ blocks.held extra)
  exact ends_onHeap (((BlockStack.drops_releaseAll _).ends accounted).imp
    (fun _ _ accounted => sound.withHeap accounted) fun _ => False.elim)

/-- A call gives back all it holds, also when there is no room for its result. -/
theorem ends_leaveCall {explicit : Bool} (sound : machine.Sound ledger extra ∅) :
    Ends (leaveCall explicit program machine) (fun _ machine => machine.Sound ledger extra ∅)
      (fun machine => machine.Sound ledger extra ∅) := by
  unfold leaveCall
  refine ends_get ?_
  cases shape : machine.calls.entries with
  | nil => exact ends_raise sound
  | cons call callers =>
    have apart : ({ machine with calls := { machine.calls with entries := callers } }).Sound ledger
        (call.blocks.held + extra) ∅ := by
      refine sound.withCalls (fun other member => ?_) ?_
      · exact sound.calls other (shape ▸ List.mem_cons_of_mem _ member)
      · simp only [CallStack.held, shape, List.map_cons, List.sum_cons]
        abel
    refine ends_modify (ends_bind ((ends_takeResult apart).then fun result machine sound => ?_))
    refine ends_bind ((ends_truncate sound).then fun _ machine sound => ?_)
    have blocksFirst := sound.of_eq (Multiset.add_cons result call.blocks.held extra).symm
    refine ends_bind ((ends_releaseBlocks blocksFirst).then fun _ machine sound => ?_)
    refine ends_andFinally ?_
    split
    case isTrue => exact ends_pure (ends_release sound)
    case isFalse =>
      refine (ends_push sound (sound.live (Multiset.mem_cons_self _ _))).imp ?_ ?_
      · intro _ machine sound
        exact ends_release (sound.mono (by simp))
      · rintro _ rfl
        exact ends_release sound

/-! ## Variables -/

section Variables

variable {target : Target} {scope bindings : Bindings}

/-- Replacing the scope of a target exchanges what the two scopes hold. -/
theorem held_setScope (found : machine.scope? target = some scope) :
    (machine.setScope bindings target).held + scope.held = machine.held + bindings.held := by
  cases target with
  | global name =>
    cases found
    simp only [setScope, held]
    abel
  | inBlock callHeight blockHeight name =>
    obtain ⟨call, inCalls, found⟩ := Option.bind_eq_some_iff.1 found
    obtain ⟨block, inBlocks, found⟩ := Option.bind_eq_some_iff.1 found
    cases found
    have blocks := @BlockStack.held_setAt call.blocks { block with locals := bindings } _ _ inBlocks
    have calls := @CallStack.held_setAt machine.calls
      { call with blocks := call.blocks.setAt blockHeight { block with locals := bindings } } _ _ inCalls
    simp only [setScope, inCalls, inBlocks, held]
    have both : (machine.calls.setAt callHeight { call with
        blocks := call.blocks.setAt blockHeight { block with locals := bindings } }).held +
          block.locals.held = machine.calls.held + bindings.held := by
      apply add_right_cancel (b := call.blocks.held)
      calc _ = (machine.calls.setAt callHeight { call with
              blocks := call.blocks.setAt blockHeight { block with locals := bindings } }).held +
              call.blocks.held + block.locals.held := by abel
        _ = machine.calls.held + ((call.blocks.setAt blockHeight
              { block with locals := bindings }).held + block.locals.held) := by
            rw [calls]
            abel
        _ = _ := by
            rw [blocks]
            abel
    calc _ = (machine.calls.setAt callHeight { call with
            blocks := call.blocks.setAt blockHeight { block with locals := bindings } }).held +
            block.locals.held +
            (↑machine.operands.items + machine.globals.held + ↑machine.pending + {machine.null}) := by
          abel
      _ = _ := by
          rw [both]
          abel

/-- Only scopes are replaced, and they stay ordered. -/
theorem exists_setScope_eq (globalsOrdered : machine.globals.Ordered)
    (callsOrdered : machine.calls.Ordered) (ordered : bindings.Ordered) (target : Target) :
    ∃ globals calls, machine.setScope bindings target = { machine with globals, calls } ∧
      globals.Ordered ∧ calls.Ordered := by
  cases target with
  | global name => exact ⟨bindings, machine.calls, rfl, ordered, callsOrdered⟩
  | inBlock callHeight blockHeight name =>
    cases inCalls : machine.calls.at? callHeight with
    | none =>
      exact ⟨machine.globals, machine.calls, by simp only [setScope, inCalls], globalsOrdered,
        callsOrdered⟩
    | some call =>
      cases inBlocks : call.blocks.at? blockHeight with
      | none =>
        exact ⟨machine.globals, machine.calls, by simp only [setScope, inCalls, inBlocks],
          globalsOrdered, callsOrdered⟩
      | some block =>
        have member : call ∈ machine.calls.entries :=
          List.mem_reverse.1 (List.mem_of_getElem? inCalls)
        have blocks : (call.blocks.setAt blockHeight { block with locals := bindings }).Ordered :=
          (callsOrdered call member).setAt ordered blockHeight
        refine ⟨machine.globals, machine.calls.setAt callHeight { call with
          blocks := call.blocks.setAt blockHeight { block with locals := bindings } },
          by simp only [setScope, inCalls, inBlocks], globalsOrdered, ?_⟩
        exact callsOrdered.setAt blocks callHeight

/-- A scope of the machine is ordered, and what it holds is held by the machine. -/
theorem Sound.scope_held (sound : machine.Sound ledger extra fresh)
    (found : machine.scope? target = some scope) :
    scope.Ordered ∧ scope.held ≤ machine.held := by
  constructor
  · cases target with
    | global name => cases found; exact sound.globals
    | inBlock callHeight blockHeight name =>
      obtain ⟨call, inCalls, found⟩ := Option.bind_eq_some_iff.1 found
      obtain ⟨block, inBlocks, found⟩ := Option.bind_eq_some_iff.1 found
      cases found
      exact sound.calls call (List.mem_reverse.1 (List.mem_of_getElem? inCalls)) block
        (List.mem_reverse.1 (List.mem_of_getElem? inBlocks))
  · have emptied := @held_setScope machine target scope .empty found
    rw [Bindings.held_empty, add_zero] at emptied
    exact emptied ▸ Multiset.le_add_left _ _

theorem binding?_eq_some {binding : Binding} (found : machine.binding? target = some binding) :
    ∃ scope, machine.scope? target = some scope ∧ scope.get? target.name = some binding :=
  Option.bind_eq_some_iff.1 found

theorem answers_binding : Answers (Query.binding target program machine)
    fun binding => machine.binding? target = some binding := by
  unfold Query.binding
  cases found : machine.binding? target with
  | none => trivial
  | some binding => exact rfl

theorem Sound.binding_live (sound : machine.Sound ledger extra fresh) {binding : Binding}
    (found : machine.binding? target = some binding) : machine.heap.contains binding.value := by
  obtain ⟨scope, inScope, stored⟩ := binding?_eq_some found
  exact sound.live_of_mem_held
    (Multiset.mem_of_le (sound.scope_held inScope).2 (Bindings.mem_held_of_get? stored))

theorem ends_assign {value : ObjectId} {location : Location}
    (sound : machine.Sound ledger extra fresh) (live : machine.heap.contains value) :
    Ends (assign target value location program machine)
      (fun _ machine => machine.Sound ledger extra fresh)
      (fun machine => machine.Sound ledger extra fresh) := by
  refine ends_bind (ends_inspect (answers_binding.imp fun binding found => ?_) sound)
  obtain ⟨scope, inScope, stored⟩ := binding?_eq_some found
  obtain ⟨ordered, part⟩ := sound.scope_held inScope
  obtain ⟨rest, whole⟩ := Multiset.le_iff_exists_add.1 part
  have accounted : machine.heap.Accounted (scope.held + (rest + extra)) fresh machine.handles :=
    sound.accounted.of_eq (by rw [whole, add_assoc])
  refine ends_get (ends_bind (ends_onHeap ?_))
  rw [inScope, Option.getD_some]
  refine (Bindings.ends_rebind? ordered stored accounted live).weaken.then ?_
  intro rebound heap outcome
  cases rebound with
  | none =>
    cases (outcome : heap = machine.heap)
    exact ends_raise sound
  | some bindings =>
    obtain ⟨ordered, accounted⟩ : bindings.Ordered ∧ _ := outcome
    have exchanged := @held_setScope { machine with heap } target scope bindings inScope
    obtain ⟨globals, calls, shape, globalsOrdered, callsOrdered⟩ :=
      @exists_setScope_eq { machine with heap } bindings sound.globals sound.calls ordered target
    change Sound (({ machine with heap } : Machine).setScope bindings target) ledger extra fresh
    rw [shape] at exchanged ⊢
    refine { sound with
      accounted := accounted.of_eq ?_, globals := globalsOrdered, calls := callsOrdered }
    have same : ({ machine with heap, globals, calls } : Machine).held = rest + bindings.held := by
      apply add_right_cancel (b := scope.held)
      rw [exchanged]
      change machine.held + _ = _
      rw [whole]
      abel
    rw [same]
    abel

/-- A global name that is taken leaves no object without references behind. -/
theorem ends_declareGlobal {location : Location} {name : String} {value : ObjectId} {isConst : Bool}
    (sound : machine.Sound ledger extra fresh) (live : machine.heap.contains value) :
    Ends (declareGlobal location name value isConst program machine)
      (fun _ machine => machine.Sound ledger extra (fresh \ {value}))
      (fun machine => machine.Sound ledger extra (fresh \ {value})) := by
  have accounted : machine.heap.Accounted (machine.globals.held + (↑machine.operands.items +
      machine.calls.held + ↑machine.pending + {machine.null} + extra)) fresh machine.handles :=
    sound.accounted.of_eq (by unfold held; abel)
  refine ends_get (ends_bind (ends_onHeap ?_))
  refine (Bindings.ends_declare? sound.globals accounted live).weaken.then ?_
  intro declared heap outcome
  cases declared with
  | none =>
    cases (outcome : heap = machine.heap)
    exact ends_bind ((ends_destroyIfUnreferenced sound).then fun _ machine sound => ends_raise sound)
  | some globals =>
    obtain ⟨ordered, accounted, -⟩ : globals.Ordered ∧ _ := outcome
    refine { sound with accounted := accounted.of_eq ?_, globals := ordered }
    simp only [held]
    abel

end Variables

end Machine

end Terrain
