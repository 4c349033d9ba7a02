import Terrain.Native.Arguments

/-!
# Arrays

Static functions and methods of arrays. Methods that change an array answer the array itself.
-/

namespace Terrain.Native

open Machine

/-- A new array of values in order. -/
def arrayOfList (values : List ObjectId) : MachineM ObjectId := do
  let id ← onHeap (Heap.register (.array .empty))
  values.forM fun value => onHeap (Heap.pushBack id value)
  return id

/-- The static function of a name. -/
def arrayStatic? (call : NativeCall) : Option (MachineM ObjectId) :=
  match call.name with
  | "Empty" => some do
    inspect (call.expect 0 0)
    arrayOfList []
  | "FromList" => some (arrayOfList call.arguments)
  | _ => none

/-- The entry at an end of an array that must not be empty. -/
def endEntry (receiver : ObjectId) (choose : ScriptArray → Option Entry) (call : NativeCall) :
    Query Entry := do
  call.expect 0 0
  match choose (← Query.array receiver) with
  | some entry => return entry
  | none => call.refuse .emptyArray s!"{call.name} called on an empty array"

/-- Takes an entry off an end and answers its value. The references of the entry are dropped when the
value is on the stack. -/
def popEntry (receiver : ObjectId) (choose : ScriptArray → Option Entry)
    (remove : ObjectId → HeapM (Option Entry)) (call : NativeCall) : MachineM ObjectId := do
  let entry ← inspect (endEntry receiver choose call)
  discard <| onHeap (remove receiver)
  modify fun machine => { machine with pending := machine.pending ++ [entry.key, entry.value] }
  return entry.value

/-- The entry at a position. -/
def entryAt (receiver : ObjectId) (call : NativeCall) : Query Entry := do
  call.expect 1 1
  let index ← call.position 0
  match (← Query.array receiver).entryAt? index with
  | some entry => return entry
  | none => call.refuse .arrayKeyNotFound s!"index {index} is out of range"

/-- The only argument, which may be any object. -/
def probe (call : NativeCall) : Query ObjectId := do
  call.expect 1 1
  call.object 0

/-- Removes a key that must be there. -/
def removeKey (receiver : ObjectId) (call : NativeCall) : MachineM ObjectId := do
  let key ← inspect (probe call)
  if ← onHeap (Heap.removeKey receiver key) then return receiver
  let value ← inspect (Query.value key)
  raise (call.error .arrayKeyNotFound s!"key {value.describe} not found")

/-- The method of a name. -/
def arrayMethod? (receiver : ObjectId) (call : NativeCall) : Option (MachineM ObjectId) :=
  match call.name with
  | "Count" => some do
    inspect (call.expect 0 0)
    let items ← inspect (Query.array receiver)
    onHeap (Heap.register (.number (Float.ofNat items.size)))
  | "Front" => some (inspect do return (← endEntry receiver ScriptArray.front? call).value)
  | "Back" => some (inspect do return (← endEntry receiver ScriptArray.back? call).value)
  | "PushBack" => some do
    onHeap (Heap.pushBack receiver (← inspect (probe call)))
    return receiver
  | "PopFront" => some (popEntry receiver ScriptArray.front? Heap.popFront? call)
  | "PopBack" => some (popEntry receiver ScriptArray.back? Heap.popBack? call)
  | "ContainsKey" => some do
    let entry ← onHeap (Heap.entryOf? receiver (← inspect (probe call)))
    onHeap (Heap.register (.boolean entry.isSome))
  | "ContainsValue" => some do
    let found ← onHeap (Heap.containsValue receiver (← inspect (probe call)))
    onHeap (Heap.register (.boolean found))
  | "RemoveKey" => some (removeKey receiver call)
  | "RemoveValue" => some do
    discard <| onHeap (Heap.removeValue receiver (← inspect (probe call)))
    return receiver
  | "GetKeyByIndex" => some (inspect do return (← entryAt receiver call).key)
  | "GetValueByIndex" => some (inspect do return (← entryAt receiver call).value)
  | "SortByKeys" => some do
    inspect (call.expect 0 0)
    onHeap (Heap.sortByKeys receiver)
    return receiver
  | "SortByValues" => some do
    inspect (call.expect 0 0)
    onHeap (Heap.sortByValues receiver)
    return receiver
  | "Shuffle" => some do
    inspect (call.expect 0 0)
    let random ← onHeap (Heap.shuffle receiver (← get).random)
    modify fun machine => { machine with random }
    return receiver
  | _ => none

end Terrain.Native
