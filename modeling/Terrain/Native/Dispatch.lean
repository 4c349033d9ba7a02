import Terrain.Machine.Recording
import Terrain.Native.Arrays
import Terrain.Native.Maps
import Terrain.Native.Math
import Terrain.Native.Profiles
import Terrain.Native.Types

/-!
# Native functions

Which native function a call means. A call answers an object; a new one has no references yet. If a
call fails, it has changed nothing that scripts can see.
-/

namespace Terrain.Native

open Machine

/-- Calls a global function. -/
def callGlobal (call : NativeCall) : MachineM ObjectId :=
  match operator? call <|> function? call with
  | some action => action
  | none => raise (call.error .undefinedFunction s!"undefined function {call.name}")

/-- The static function of a type. -/
def staticFunction? (script : Script) (typeName : String) (call : NativeCall) :
    Option (MachineM ObjectId) :=
  match typeName with
  | "HeightMap" =>
    (mapMaker? call).map fun query => do
      let (maker, arguments) ← inspect query
      make (.makeMap maker) arguments call.location
  | "HeightProfile" =>
    (profileMaker? call).map fun query => do
      let (maker, arguments) ← inspect query
      make (.makeProfile maker) arguments call.location
  | "Array" => arrayStatic? call
  | _ => (enumStatic? script typeName call).map fun query => do
    onHeap (Heap.register (← inspect query))

/-- The function a member call means. -/
def memberFunction? (script : Script) (receiver : ObjectId) (value : Value) (call : NativeCall) :
    Option (MachineM ObjectId) :=
  match value with
  | .type typeName => staticFunction? script typeName call
  | .raster .map =>
    (mapEdit? call).map fun query => do
      let (change, arguments) ← inspect query
      edit receiver (.editMap change) arguments call.location
  | .raster .profile =>
    (profileEdit? call).map fun query => do
      let (change, arguments) ← inspect query
      edit receiver (.editProfile change) arguments call.location
  | .array _ => arrayMethod? receiver call
  | _ => none

/-- Calls a member function of an object. -/
def callMember (receiver : ObjectId) (call : NativeCall) : MachineM ObjectId := do
  match ← inspect (Query.value receiver) with
  | .null => raise (call.error .nullReference s!"{call.name} called on null")
  | value =>
    match memberFunction? (← read).script receiver value call with
    | some action => action
    | none =>
      raise (call.error .undefinedFunction s!"{value.typeName} has no function {call.name}")

/-- The member of a value. -/
def member (receiver : ObjectId) (name : String) (location : Location) : Query Value := do
  let program ← read
  let value ← Query.value receiver
  let missing : Query Value :=
    raise (.script ⟨.undefinedMemberVariable, location, s!"{value.typeName} has no member {name}"⟩)
  match value with
  | .null => raise (.script ⟨.nullReference, location, s!"member {name} read from null"⟩)
  | .type typeName =>
    match enumMember? program.script typeName name location with
    | some (.ok value) => return value
    | some (.error error) => raise error
    | none => missing
  | .parameters =>
    match parameterMember? program.parameters name with
    | some value => return value
    | none => missing
  | _ => missing

/-- Reads a member variable of an object. -/
def loadMember (receiver : ObjectId) (name : String) (location : Location) : MachineM ObjectId := do
  onHeap (Heap.register (← inspect (member receiver name location)))

end Terrain.Native
