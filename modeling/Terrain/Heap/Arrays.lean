import Terrain.Heap.Basic

/-!
# Counted array operations

Array operations on objects of the heap. An array holds one reference to every key and value object
in it; these operations keep the counts in step with what is stored.
-/

namespace Terrain.Heap

/-- What an object compares by. -/
def keyOf (id : ObjectId) : HeapM ArrayKey := return (← value id).key id

/-- Orders two objects the way array keys are ordered. -/
def compareObjects (a b : ObjectId) : HeapM Ordering :=
  return (← keyOf a).compare (← keyOf b)

/-- The array in an object, which must be one. -/
def arrayAt (id : ObjectId) : HeapM ScriptArray := do
  match ← value id with
  | .array items => return items
  | other => fail (.notAnArray id other.typeName)

/-- Changes an array in place; any other value stays. -/
def modifyArray (id : ObjectId) (f : ScriptArray → ScriptArray) : HeapM Unit :=
  modifyValue id fun
    | .array items => .array (f items)
    | other => other

/-- Stores a value under a key. Both gain a reference, and what they replace loses one. -/
def setEntry (array key value : ObjectId) : HeapM Unit := do
  let arrayKey ← keyOf key
  addRef key
  addRef value
  let replaced := (← arrayAt array).get? arrayKey
  modifyArray array (·.insert arrayKey ⟨key, value⟩)
  if let some old := replaced then
    release old.key
    release old.value

/-- Appends a value under the next integer key. -/
def pushBack (array value : ObjectId) : HeapM Unit := do
  match (← arrayAt array).nextIntegerKey with
  | .ok next => setEntry array (← register (.number next)) value
  | .error breach => fail breach

/-- The entry stored under a key. -/
def entryOf? (array key : ObjectId) : HeapM (Option Entry) := do
  let arrayKey ← keyOf key
  return (← arrayAt array).get? arrayKey

/-- Whether a value object equal to `value` is stored. -/
def containsValue (array value : ObjectId) : HeapM Bool := do
  (← arrayAt array).toList.anyM fun entry => return (← compareObjects entry.value value) == .eq

/-- Drops the references of an entry that was taken out. -/
def releaseEntry (entry : Entry) : HeapM Unit := do
  release entry.key
  release entry.value

/-- Removes the entry of a key, if there is one. -/
def eraseKey (array : ObjectId) (key : ArrayKey) : HeapM Bool := do
  match (← arrayAt array).get? key with
  | some entry =>
    modifyArray array (·.erase key)
    releaseEntry entry
    return true
  | none => return false

/-- Removes the entry under a key object; answers whether there was one. -/
def removeKey (array key : ObjectId) : HeapM Bool := do
  let arrayKey ← keyOf key
  eraseKey array arrayKey

/-- The keys whose values equal `value`, in order. -/
def keysOfValue (array value : ObjectId) : HeapM (List ArrayKey) := do
  let items ← arrayAt array
  items.order.toList.filterM fun key => do
    match items.get? key with
    | some entry => return (← compareObjects entry.value value) == .eq
    | none => return false

/-- Removes every entry whose value equals `value`; answers how many there were. -/
def removeValue (array value : ObjectId) : HeapM Nat := do
  let keys ← keysOfValue array value
  for key in keys do
    let _ ← eraseKey array key
  return keys.length

/-- Takes the first entry out; its references pass to the caller. -/
def popFront? (array : ObjectId) : HeapM (Option Entry) := do
  match (← arrayAt array).popFront? with
  | some (entry, items) =>
    modifyArray array fun _ => items
    return some entry
  | none => return none

/-- Takes the last entry out; its references pass to the caller. -/
def popBack? (array : ObjectId) : HeapM (Option Entry) := do
  match (← arrayAt array).popBack? with
  | some (entry, items) =>
    modifyArray array fun _ => items
    return some entry
  | none => return none

def sortByKeys (array : ObjectId) : HeapM Unit := do
  let _ ← arrayAt array
  modifyArray array (·.sortByKeys)

/-- What the value stored under a key compares by. -/
def valueKeyOf (items : ScriptArray) (key : ArrayKey) : HeapM ArrayKey :=
  match items.get? key with
  | some entry => keyOf entry.value
  | none => return .null

def sortByValues (array : ObjectId) : HeapM Unit := do
  let items ← arrayAt array
  let ranked ← items.order.toList.mapM fun key => return (← valueKeyOf items key, key)
  modifyArray array (·.sortByValues ranked)

/-- Puts the entries into a random order; answers the source after its draws. -/
def shuffle (array : ObjectId) (random : RandomSequence) : HeapM RandomSequence := do
  let (items, random) := (← arrayAt array).shuffle random
  modifyArray array fun _ => items
  return random

end Terrain.Heap
