import Terrain.Proofs.Control.Callers

/-!
# Isolation of calls

A call works above its base: its operands come and go there, and its blocks are its own. What lies
below, operands and callers, stays as it was until the call is left, however many other calls come and
go in between. A script can break this in two ways only. It can take more operands than the call has,
which is excluded here by looking at the lowest point of every tick. And it can increment a variable of
a caller through a reference.

* `Machine.lowest` — how far down the operands go in a tick.
* `Machine.Active` — the ticks while a call is active; `Machine.Active.undisturbed` is the invariant.
* `Machine.call_isolated` — what is found when the call is left.
-/

namespace Terrain.Machine

variable {program : Program} {machine after : Machine} {location : Location} {depth : Nat}

/-! ## Operands -/

/-- The call that the next tick leaves, by a return or because it has come to its end. -/
def leaving? (machine : Machine) : Option Call :=
  match machine.pending? with
  | some (_, .returnCall) => machine.calls.entries.head?
  | some _ => none
  | none => machine.calls.entries.head?.filter (·.blocks.isEmpty)

/-- The least height of the operands during the next tick. A call that is left takes its own operands
along. -/
def lowest (machine : Machine) : Nat :=
  match machine.leaving? with
  | some call => min machine.operands.size call.base
  | none => machine.operands.size - machine.pending?.elim 0 fun instruction => instruction.2.takes

theorem Sound.advanced {ledger : Ledger} (sound : machine.Sound ledger 0 ∅) :
    machine.advanced.Sound ledger 0 ∅ := by
  unfold Machine.advanced
  split
  case h_1 block top =>
    have same := @CallStack.held_setTopBlock machine.calls
      { block with cursor := block.cursor + 1 } block top
    have ordered : block.locals.Ordered := sound.calls.topBlock? top
    refine sound.withCalls (sound.calls.setTopBlock ordered) ?_
    rw [← add_right_cancel same]
  case h_2 => exact sound

/-- A tick keeps the counts exact. -/
theorem Sound.tick {steps : Array Step} (sound : machine.Sound ⟨[], steps⟩ 0 ∅)
    (run : tick program machine = .ok () after) : ∃ steps, after.Sound ⟨[], steps⟩ 0 ∅ := by
  unfold Machine.tick at run
  split at run
  case h_1 location operation pending =>
    have ends := @ends_execute program _ _ _ location operation sound.advanced
    rw [run] at ends
    obtain ⟨steps, -, sound⟩ := ends
    exact ⟨steps, sound⟩
  case h_2 =>
    split at run
    case h_1 =>
      have ends := @ends_finish program _ _ _ sound
      rw [run] at ends
      exact ⟨steps, ends⟩
    case h_2 =>
      split at run
      case h_1 =>
        have ends := @ends_leaveCall program _ _ _ false sound
        rw [run] at ends
        exact ⟨steps, ends⟩
      case h_2 =>
        split at run
        · have ends := @ends_restartBlock program _ _ _ _ (fun _ => False) sound
          rw [run] at ends
          exact ⟨steps, ends⟩
        · have ends := @ends_leaveBlock program _ _ _ _ sound
          rw [run] at ends
          exact ⟨steps, ends⟩

theorem entries_of_callers {call : Call} {rest : List Call} {calls : CallStack}
    (entries : machine.calls.entries = call :: rest)
    (same : callers calls = callers machine.calls) :
    ∃ frame, calls.entries = frame :: rest ∧ frame.base = call.base := by
  obtain ⟨tails, bases⟩ := Prod.mk.inj same
  rw [entries, List.tail_cons] at tails
  rw [entries, List.map_cons] at bases
  obtain ⟨frame, others, shape, base, -⟩ := List.map_eq_cons_iff.1 bases
  rw [shape, List.tail_cons] at tails
  exact ⟨frame, by rw [shape, tails], base⟩

/-- A tick that leaves a call. A return is counted before. -/
theorem tick_of_leaving {call : Call} {steps : Array Step} (sound : machine.Sound ⟨[], steps⟩ 0 ∅)
    (leaving : machine.leaving? = some call) (program : Program) :
    ∃ explicit frame calls, tick program machine = leaveCall explicit program { machine with calls } ∧
      { machine with calls }.Sound ⟨[], steps⟩ 0 ∅ ∧
      calls.entries = frame :: machine.calls.entries.tail ∧ frame.base = call.base := by
  unfold leaving? at leaving
  split at leaving
  case h_1 location pending =>
    obtain ⟨rest, entries⟩ := List.head?_eq_some_iff.1 leaving
    obtain ⟨calls, moved, same⟩ := advanced_eq machine
    obtain ⟨frame, shape, base⟩ := entries_of_callers entries same
    refine ⟨true, frame, calls, ?_, moved ▸ sound.advanced, by rw [shape, entries]; rfl, base⟩
    unfold tick
    rw [pending, moved]
    rfl
  case h_2 => cases leaving
  case h_3 idle =>
    obtain ⟨first, empty⟩ := Option.filter_eq_some_iff.1 leaving
    obtain ⟨rest, entries⟩ := List.head?_eq_some_iff.1 first
    refine ⟨false, call, machine.calls, ?_, sound, by rw [entries]; rfl, rfl⟩
    unfold tick
    rw [idle, entries]
    simp only [BlockStack.top?, List.isEmpty_iff.1 empty, List.head?_nil]

/-- A tick exchanges operands above the lowest point. -/
theorem exchange_of_tick {steps : Array Step} (sound : machine.Sound ⟨[], steps⟩ 0 ∅)
    (calling : machine.calls.entries ≠ []) (run : tick program machine = .ok () after) :
    ∃ put taken, after.operands =
        { machine.operands with items := put ++ machine.operands.items.drop taken } ∧
      machine.lowest ≤ machine.operands.size - taken := by
  cases leaving : machine.leaving? with
  | some call =>
    obtain ⟨explicit, frame, calls, leaves, sound, entries, base⟩ :=
      tick_of_leaving sound leaving program
    obtain ⟨result, heap, left⟩ := exists_leaveCall_eq explicit program sound entries
    have low : machine.lowest ≤ machine.operands.size - (machine.operands.size - call.base) := by
      simp only [lowest, leaving]
      omega
    rw [leaves, left, base] at run
    dsimp only at run
    split at run
    · cases run
      exact ⟨[], machine.operands.size - call.base, rfl, low⟩
    split at run
    · cases run
      exact ⟨[result], machine.operands.size - call.base, rfl, low⟩
    · cases run
  | none =>
    unfold tick at run
    split at run
    case h_1 location operation pending =>
      have stays : operation ≠ .returnCall := by
        rintro rfl
        simp only [leaving?, pending, List.head?_eq_none_iff] at leaving
        exact calling leaving
      obtain ⟨calls, moved, -⟩ := advanced_eq machine
      rw [moved] at run
      obtain ⟨put, exchanged⟩ := exchanges_execute stays location _ _ _ _ run
      exact ⟨put, operation.takes, exchanged, by simp [lowest, leaving, pending]⟩
    case h_2 idle =>
      have low : machine.lowest ≤ machine.operands.size - 0 := by simp [lowest, leaving, idle]
      have nested : Keeps (fun operands _ _ => operands) leaveBlock := keeps_leaveBlock
      have again : Keeps (fun operands _ _ => operands) restartBlock := keeps_restartBlock
      split at run
      case h_1 none => exact absurd none calling
      case h_2 call rest entries =>
        split at run
        case h_1 none =>
          have empty : call.blocks.isEmpty = true := List.isEmpty_iff.2 (List.head?_eq_none_iff.1 none)
          simp [leaving?, idle, entries, empty] at leaving
        case h_2 =>
          split at run
          · exact ⟨[], 0, again _ _ _ _ run, low⟩
          · exact ⟨[], 0, nested _ _ _ _ run, low⟩

/-! ## Active calls -/

/-- Ticks from a state on, while more than `depth` calls are active and the operands stay above a
height. The states that the ticks start from are listed, the last one first. -/
inductive Active (program : Program) (depth height : Nat) (start : Machine) :
    List Machine → Machine → Prop
  | entered : Active program depth height start [] start
  | tick {path : List Machine} {machine after : Machine}
      (before : Active program depth height start path machine) (high : height ≤ machine.lowest)
      (run : tick program machine = .ok () after) (active : depth < after.calls.size) :
      Active program depth height start (machine :: path) after

/-- What an active call leaves as it was: the operands below the height, and the calls below it, but
for variables that are incremented through references. -/
structure Undisturbed (program : Program) (depth height : Nat) (start : Machine)
    (path : List Machine) (last : Machine) : Prop where
  sound : ∃ steps, last.Sound ⟨[], steps⟩ 0 ∅
  active : depth < last.calls.size
  limit : last.operands.limit = start.operands.limit
  operands : last.operands.items.rtake height = start.operands.items.rtake height
  spares : Spares depth (fun target => ∃ state ∈ path, state.Increments program target) start last

theorem Active.undisturbed {height : Nat} {start last : Machine} {path : List Machine}
    {steps : Array Step} (sound : start.Sound ⟨[], steps⟩ 0 ∅) (low : depth < start.calls.size)
    (run : Active program depth height start path last) :
    Undisturbed program depth height start path last := by
  induction run with
  | entered =>
    exact ⟨⟨steps, sound⟩, low, rfl, rfl, .of_callers rfl low⟩
  | tick before high run active ih =>
    obtain ⟨steps, sound⟩ := ih.sound
    obtain ⟨put, taken, exchanged, reach⟩ :=
      exchange_of_tick sound (List.ne_nil_of_length_pos (Nat.zero_lt_of_lt ih.active)) run
    constructor
    case sound => exact sound.tick run
    case active => exact active
    case limit =>
      rw [exchanged]
      exact ih.limit
    case operands =>
      rw [exchanged]
      exact (rtake_exchange put (high.trans reach)).trans ih.operands
    case spares =>
      refine (ih.spares.mono fun target => ?_).trans ((spares_tick ih.active run active).mono ?_)
      · rintro ⟨state, member, increments⟩
        exact ⟨state, List.mem_cons_of_mem _ member, increments⟩
      · exact fun target increments => ⟨_, List.mem_cons_self, increments⟩

/-! ## Calls -/

/-- A call of a script function starts above the operands that are left when its arguments are
taken. -/
theorem tick_calls {name : String} {count : Nat} {function : ScriptFunction}
    (pending : machine.pending? = some (location, .callGlobal name count))
    (scripted : program.script.functions.get? name = some function)
    (run : tick program machine = .ok () after) :
    after.operands.items = machine.operands.items.drop count ∧
      ∃ frame, after.calls.entries = frame :: machine.advanced.calls.entries ∧
        frame.base = after.operands.size := by
  unfold tick at run
  rw [pending] at run
  obtain ⟨calls, moved, -⟩ := advanced_eq machine
  have run : callGlobal location name count program machine.advanced = .ok () after := run
  rw [moved] at run ⊢
  rcases calls_of_callGlobal_eq_ok run with ⟨-, frame, -, -, entries, -, -, base, operands⟩ | ⟨native, -⟩
  · exact ⟨operands, frame, entries, base⟩
  · rw [scripted] at native
    cases native

theorem head?_of_leaving {call : Call} (leaving : machine.leaving? = some call) :
    machine.calls.entries.head? = some call := by
  unfold leaving? at leaving
  split at leaving
  · exact leaving
  · cases leaving
  · exact (Option.filter_eq_some_iff.1 leaving).1

theorem rtake_of_length {α : Type} {items : List α} {count : Nat} (size : items.length = count) :
    items.rtake count = items := by
  rw [List.rtake, size, Nat.sub_self, List.drop_zero]

theorem rtake_of_length_succ {α : Type} {items : List α} {count : Nat} (size : items.length = count + 1) :
    items.rtake count = items.tail := by
  rw [List.rtake, size, Nat.add_sub_cancel_left, List.drop_one]

theorem size_pos_of_pending {instruction : Instruction}
    (pending : machine.pending? = some instruction) : 0 < machine.calls.size := by
  obtain ⟨block, top, -⟩ := Option.bind_eq_some_iff.1 pending
  obtain ⟨call, callers, outer, entries, -⟩ := CallStack.topBlock?_eq_some top
  rw [CallStack.size, entries]
  exact Nat.succ_pos _

/-- A call that is gone has left its callers as they were: the same functions with the same bases and
blocks at the same positions, and the same bindings but for variables that were incremented through
references. -/
structure Restored (program : Program) (inside : Machine) (path : List Machine) (after : Machine) :
    Prop where
  callers : after.calls.entries.map Call.bare = inside.calls.entries.tail.map Call.bare
  bindings : ∀ height index name, height < after.calls.size →
    (∀ state ∈ path, ¬state.Increments program (.inBlock height index name)) →
      after.binding? (.inBlock height index name) = inside.binding? (.inBlock height index name)

theorem Undisturbed.restored {height : Nat} {start last : Machine} {path : List Machine}
    (undisturbed : Undisturbed program depth height start path last)
    (entered : start.calls.size = depth + 1) (own : last.calls.size = depth + 1)
    (left : after.calls.entries = last.calls.entries.tail) : Restored program start path after where
  callers := by
    have frames := undisturbed.spares.frames
    rwa [rtake_of_length_succ (by rwa [List.length_map]),
      rtake_of_length_succ (by rwa [List.length_map]), ← List.map_tail, ← List.map_tail, ← left]
      at frames
  bindings outer index name low kept := by
    have size : after.calls.entries.length = depth := by
      rw [left, List.length_tail]
      exact Nat.sub_eq_of_eq_add own
    have same : after.calls.entries.rtake depth = last.calls.entries.rtake depth := by
      rw [rtake_of_length_succ own, ← left, rtake_of_length size]
    have low : outer < depth := size ▸ low
    refine (binding?_of_rtake same low).trans (undisturbed.spares.bindings outer index name low ?_)
    rintro ⟨state, member, increments⟩
    exact kept state member increments

/-- A call that is left while the operands below its base were never touched puts its result on them,
if there is room. -/
theorem call_isolated {name : String} {count : Nat} {function : ScriptFunction}
    {inside last : Machine} {path : List Machine} (reached : Reachable program machine)
    (pending : machine.pending? = some (location, .callGlobal name count))
    (scripted : program.script.functions.get? name = some function)
    (entered : tick program machine = .ok () inside)
    (run : Active program machine.calls.size inside.operands.size inside path last)
    (own : last.calls.size = machine.calls.size + 1) (leaving : last.leaving?.isSome) :
    inside.operands.items = machine.operands.items.drop count ∧
      (∃ frame, inside.calls.entries = frame :: machine.advanced.calls.entries ∧
        frame.base = inside.operands.size) ∧
      if inside.operands.size < inside.operands.limit then
        ∃ result after, tick program last = .ok () after ∧
          after.operands.items = result :: inside.operands.items ∧ Restored program inside path after
      else ∃ called after,
          tick program last = .error (.error (overflow inside.operands.limit called)) after ∧
          after.operands.items = inside.operands.items ∧ Restored program inside path after := by
  obtain ⟨operands, frame, entries, base⟩ := tick_calls pending scripted entered
  refine ⟨operands, ⟨frame, entries, base⟩, ?_⟩
  obtain ⟨calls, moved, same⟩ := advanced_eq machine
  have depth : inside.calls.size = machine.calls.size + 1 := by
    rw [CallStack.size, entries, moved, List.length_cons]
    exact congrArg (· + 1) (size_of_callers same)
  obtain ⟨_, sound⟩ := reached.sound.tick entered
  have undisturbed := run.undisturbed sound (by omega)
  obtain ⟨_, sound⟩ := undisturbed.sound
  obtain ⟨call, leaving⟩ := Option.isSome_iff_exists.1 leaving
  obtain ⟨explicit, top, calls, leaves, sound, shape, ownBase⟩ := tick_of_leaving sound leaving program
  obtain ⟨result, heap, left⟩ := exists_leaveCall_eq explicit program sound shape
  have callBase : call.base = inside.operands.size := by
    have bases := undisturbed.spares.bases
    rw [rtake_of_length (by rwa [List.length_map]), rtake_of_length (by rwa [List.length_map]),
      entries, List.map_cons] at bases
    have first := congrArg List.head? bases
    rw [List.head?_map, head?_of_leaving leaving] at first
    exact (Option.some.inj first).trans base
  have below : last.operands.items.drop (last.operands.size - top.base) = inside.operands.items := by
    rw [ownBase, callBase]
    exact undisturbed.operands.trans (rtake_of_length rfl)
  have nested : last.calls.entries.tail ≠ [] := by
    have calling := size_pos_of_pending pending
    refine List.ne_nil_of_length_pos ?_
    rw [List.length_tail]
    change 0 < last.calls.size - 1
    omega
  rw [leaves, left]
  dsimp only
  rw [below, if_neg nested, undisturbed.limit]
  split
  case isTrue room =>
    have room : inside.operands.items.length < inside.operands.limit := room
    rw [if_pos room]
    exact ⟨result, _, rfl, rfl, undisturbed.restored depth own rfl⟩
  case isFalse full =>
    have full : ¬inside.operands.items.length < inside.operands.limit := full
    rw [if_neg full]
    exact ⟨top.location, _, rfl, rfl, undisturbed.restored depth own rfl⟩

/-! ## A call without effect -/

/-- A program that calls a function that does nothing while an operand is on the stack. -/
def caller (room : Nat) : Program where
  script := { idle.script with
    main := [(.start, .loadNull), (.start, .callGlobal "leaf" 0)]
    functions := [("leaf", ⟨[], []⟩)] }
  parameters := idle.parameters
  limits := { operands := room }

def callerStates (room : Nat) : Option (Machine × Machine × Machine) :=
  match start (caller room) with
  | .error _ => none
  | .ok machine =>
    match step (caller room) machine with
    | .error _ _ => none
    | .ok _ machine =>
      match tick (caller room) machine with
      | .error _ _ => none
      | .ok _ inside =>
        match tick (caller room) inside with
        | .error _ _ => none
        | .ok _ last => some (machine, inside, last)

def callerChecks (room : Nat) : Machine × Machine × Machine → Bool := fun (machine, inside, last) =>
  (machine.pending?.any fun instruction =>
    match instruction.2 with
    | .callGlobal "leaf" 0 => true
    | _ => false) &&
  machine.calls.size == 1 && inside.operands.size == 1 && inside.operands.limit == room &&
  inside.lowest == 1 && last.calls.size == 2 && last.leaving?.isSome

/-- The states of a call, as far as it has got. -/
structure Calling (room : Nat) (machine inside last : Machine) (location : Location) : Prop where
  reached : Reachable (caller room) machine
  pending : machine.pending? = some (location, .callGlobal "leaf" 0)
  entered : tick (caller room) machine = .ok () inside
  run : Active (caller room) machine.calls.size inside.operands.size inside [inside] last
  own : last.calls.size = machine.calls.size + 1
  leaving : last.leaving?.isSome
  operand : inside.operands.size = 1
  limit : inside.operands.limit = room

theorem exists_calling {room : Nat} {more : Machine × Machine × Machine → Bool}
    (checked : (callerStates room).any (fun states => callerChecks room states && more states) = true) :
    ∃ machine inside last location, Calling room machine inside last location ∧
      more (machine, inside, last) = true := by
  obtain ⟨⟨machine, inside, last⟩, states, checked⟩ := (Option.any_eq_true _ _).1 checked
  simp only [callerChecks, Bool.and_eq_true, beq_iff_eq] at checked
  obtain ⟨⟨⟨⟨⟨⟨⟨calls, depth⟩, operand⟩, limit⟩, lowest⟩, own⟩, leaving⟩, more⟩ := checked
  obtain ⟨⟨location, operation⟩, pending, calls⟩ := (Option.any_eq_true _ _).1 calls
  refine ⟨machine, inside, last, location, ?_, more⟩
  unfold callerStates at states
  split at states
  case h_1 => cases states
  case h_2 started =>
    split at states
    case h_1 => cases states
    case h_2 stepped =>
      split at states
      case h_1 => cases states
      case h_2 entered =>
        split at states
        case h_1 => cases states
        case h_2 left =>
          cases states
          refine ⟨.step (.start started) stepped, ?_, entered, ?_, by omega, leaving, operand, limit⟩
          · dsimp only at calls
            split at calls
            · exact pending
            · cases calls
          · exact .tick .entered (by omega) left (by omega)

/-- With room for the result. -/
theorem caller_isolated : ∃ (inside last : Machine) (result : ObjectId) (after : Machine),
    tick (caller 2) last = .ok () after ∧ after.operands.items = result :: inside.operands.items := by
  obtain ⟨machine, inside, last, location, calling, -⟩ :=
    @exists_calling 2 (fun _ => true) (by decide +kernel)
  have isolated := call_isolated calling.reached calling.pending rfl calling.entered calling.run
    calling.own calling.leaving
  rw [calling.operand, calling.limit, if_pos (by decide)] at isolated
  obtain ⟨-, -, result, after, left, operands, -⟩ := isolated
  exact ⟨inside, last, result, after, left, operands⟩

/-- Without room there is no result, though the call is gone. -/
theorem caller_overflows : ∃ (machine inside last : Machine) (location : Location)
    (failure : Failure) (after : Machine), Calling 1 machine inside last location ∧
      tick (caller 1) last = .error failure after ∧
      after.calls.size = machine.calls.size ∧
      ∀ result, after.operands.items ≠ result :: inside.operands.items := by
  obtain ⟨machine, inside, last, location, calling, fails⟩ := @exists_calling 1
    (fun (machine, inside, last) => match tick (caller 1) last with
      | .error _ after => after.calls.size == machine.calls.size &&
        after.operands.size == inside.operands.size
      | .ok .. => false) (by decide +kernel)
  dsimp only at fails
  split at fails
  case h_1 failure after failed =>
    simp only [Bool.and_eq_true, beq_iff_eq] at fails
    refine ⟨machine, inside, last, location, failure, after, calling, failed, fails.1, ?_⟩
    intro result same
    have sizes := fails.2
    rw [OperandStack.size, OperandStack.size, same, List.length_cons] at sizes
    omega
  case h_2 => cases fails

end Terrain.Machine
