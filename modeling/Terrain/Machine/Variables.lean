import Terrain.Machine.State
import Terrain.Text.Quoted

/-!
# Variables

A name means the binding in the innermost block of the current call that has it, or else the global
one. A target names a binding from outside: by call, block and name.
-/

namespace Terrain

/-- Field-by-field text of a target. -/
def Target.fields : Target → String
  | .global name => s!"Global({Text.quoted name})"
  | .inBlock call block name =>
    s!"Local \x7b call_index: {call}, block_index: {block}, name: {Text.quoted name} \x7d"

/-- The variable of a target. -/
def Target.name : Target → String
  | .global name | .inBlock _ _ name => name

namespace Machine

/-- The binding a name means in the blocks of a call, innermost first. -/
def targetIn? (call : Nat) (name : String) : List Block → Option Target
  | [] => none
  | block :: outer =>
    if block.locals.contains name then some (.inBlock call outer.length name)
    else targetIn? call name outer

/-- The binding a name means. -/
def target? (machine : Machine) (name : String) : Option Target :=
  let inCall := machine.calls.entries.head?.bind fun call =>
    targetIn? (machine.calls.size - 1) name call.blocks.entries
  inCall <|> if machine.globals.contains name then some (.global name) else none

/-- The bindings a target is in. -/
def scope? (machine : Machine) : Target → Option Bindings
  | .global _ => some machine.globals
  | .inBlock call block _ => do
    let call ← machine.calls.at? call
    let block ← call.blocks.at? block
    return block.locals

/-- The binding of a target. -/
def binding? (machine : Machine) (target : Target) : Option Binding := do
  (← machine.scope? target).get? target.name

/-- Replaces the bindings a target is in. -/
def setScope (machine : Machine) (bindings : Bindings) : Target → Machine
  | .global _ => { machine with globals := bindings }
  | .inBlock callHeight blockHeight _ =>
    match machine.calls.at? callHeight with
    | none => machine
    | some call =>
      match call.blocks.at? blockHeight with
      | none => machine
      | some block =>
        let blocks := call.blocks.setAt blockHeight { block with locals := bindings }
        { machine with calls := machine.calls.setAt callHeight { call with blocks } }

end Machine

namespace Query

/-- The binding a name means. -/
def target (name : String) (location : Location) : Query Target := fun _ machine =>
  match machine.target? name with
  | some target => .ok target
  | none => .error (.error (.script ⟨.undefinedVariable, location, s!"undefined variable {name}"⟩))

/-- The binding of a target that must still exist. -/
def binding (target : Target) : Query Binding := fun _ machine =>
  match machine.binding? target with
  | some binding => .ok binding
  | none => .error (.error (.intermediateCode s!"dangling reference {target.fields}"))

end Query

namespace Machine

/-- Binds the variable of a target to another object. -/
def assign (target : Target) (value : ObjectId) (location : Location) : MachineM Unit := do
  let binding ← inspect (Query.binding target)
  let scope := ((← get).scope? target).getD .empty
  match ← onHeap (scope.rebind? target.name binding value) with
  | some bindings => modify (·.setScope bindings target)
  | none => raise (.script ⟨.readOnlyWrite, location, s!"{target.name} is read-only"⟩)

/-- Binds a new global name. If the name is taken, an object nothing refers to is gone again. -/
def declareGlobal (location : Location) (name : String) (value : ObjectId) (isConst : Bool) :
    MachineM Unit := do
  match ← onHeap ((← get).globals.declare? name value isConst) with
  | some globals => modify fun machine => { machine with globals }
  | none =>
    onHeap (Heap.destroyIfUnreferenced value)
    raise (.script ⟨.variableAlreadyDefined, location, s!"global variable {name} is already defined"⟩)

end Machine

end Terrain
