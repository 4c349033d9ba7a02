import Std.Data.TreeMap
import Terrain.Failure
import Terrain.Heap.Key
import Terrain.Random.Sequence

/-!
# Script arrays

An ordered container from keys to objects. `order` lists the keys as scripts see them, and `entries`
finds the objects stored under a key; every key stands once in both. Nothing here counts references:
that is the heap's business.

* `insert`, `erase`, `get?` — by key.
* `entryAt?`, `front?`, `back?`, `popFront?`, `popBack?` — by position.
* `sortByKeys`, `sortByValues`, `shuffle` — reorderings.
-/

namespace Terrain

/-- The key object and the value object stored under one key. -/
structure Entry where
  key : ObjectId
  value : ObjectId
  deriving Repr, DecidableEq, Inhabited

structure ScriptArray where
  order : Array ArrayKey
  entries : Std.TreeMap ArrayKey Entry ArrayKey.compare
  /-- Greatest whole number that was ever a key, `-1` before there was one. -/
  maxIntegerKey : Int

namespace ScriptArray

def empty : ScriptArray := ⟨#[], ∅, -1⟩

instance : Inhabited ScriptArray := ⟨empty⟩

def size (array : ScriptArray) : Nat := array.order.size

def isEmpty (array : ScriptArray) : Bool := array.order.isEmpty

def get? (array : ScriptArray) (key : ArrayKey) : Option Entry := array.entries[key]?

def contains (array : ScriptArray) (key : ArrayKey) : Bool := array.entries.contains key

/-- The greatest whole number among the keys, once `key` is one of them. -/
def raiseIntegerKey (array : ScriptArray) : ArrayKey → Int
  | .number n =>
    if Number.isWhole n then max array.maxIntegerKey (Number.truncateTo wideMin wideMax n)
    else array.maxIntegerKey
  | _ => array.maxIntegerKey

/-- Stores an entry. A key that is present keeps its position, a new one goes to the end. -/
def insert (array : ScriptArray) (key : ArrayKey) (entry : Entry) : ScriptArray :=
  { order := if array.contains key then array.order else array.order.push key
    maxIntegerKey := array.raiseIntegerKey key
    entries := array.entries.insert key entry }

/-- Removes the entry of a key. -/
def erase (array : ScriptArray) (key : ArrayKey) : ScriptArray :=
  if array.contains key then
    { array with
      order := array.order.filter fun other => !(other == key)
      entries := array.entries.erase key }
  else array

/-- Key of the next element that is appended without one. -/
def nextIntegerKey (array : ScriptArray) : Except Breach Float :=
  if array.maxIntegerKey < wideMax then .ok (Float.ofInt (array.maxIntegerKey + 1))
  else .error .overflow

/-! ## Positions -/

def entryAt? (array : ScriptArray) (index : Nat) : Option Entry :=
  array.order[index]?.bind array.get?

def front? (array : ScriptArray) : Option Entry := array.entryAt? 0

def back? (array : ScriptArray) : Option Entry :=
  if array.isEmpty then none else array.entryAt? (array.size - 1)

/-- The first entry and the array without it. -/
def popFront? (array : ScriptArray) : Option (Entry × ScriptArray) := do
  let key ← array.order[0]?
  return (← array.get? key, array.erase key)

/-- The last entry and the array without it. -/
def popBack? (array : ScriptArray) : Option (Entry × ScriptArray) := do
  let key ← array.order.back?
  return (← array.get? key, array.erase key)

/-- Entries in the order scripts see. -/
def toList (array : ScriptArray) : List Entry := array.order.toList.filterMap array.get?

/-- Objects an array refers to, in key order. -/
def children (array : ScriptArray) : List ObjectId :=
  array.entries.toList.flatMap fun (_, entry) => [entry.key, entry.value]

/-! ## Reorderings -/

def sortByKeys (array : ScriptArray) : ScriptArray :=
  { array with
    order := (array.order.toList.mergeSort fun a b => (a.compare b).isLE).toArray }

/-- Sorts by what each entry's value compares by, then by key. Every key comes with the projection of
its value in front of it. -/
def sortByValues (array : ScriptArray) (ranked : List (ArrayKey × ArrayKey)) : ScriptArray :=
  let precedes (a b : ArrayKey × ArrayKey) : Bool :=
    ((a.1.compare b.1).then (a.2.compare b.2)).isLE
  { array with order := ((ranked.mergeSort precedes).map (·.2)).toArray }

/-- Exchanges position `i` with a random one at or before it, for `i` down to 1. -/
def shuffleFrom (order : Array ArrayKey) (random : RandomSequence) :
    Nat → Array ArrayKey × RandomSequence
  | 0 => (order, random)
  | i + 1 =>
    let (word, random) := random.nextWord
    let j := (pick word 0 (i + 1)).toNat
    shuffleFrom (order.swapIfInBounds (i + 1) j) random i

/-- A random order; one draw for every element but the first. -/
def shuffle (array : ScriptArray) (random : RandomSequence) : ScriptArray × RandomSequence :=
  let (order, random) := shuffleFrom array.order random (array.size - 1)
  ({ array with order }, random)

end ScriptArray

end Terrain
