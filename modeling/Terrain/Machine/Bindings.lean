import Terrain.Dictionary
import Terrain.Heap.Arrays

/-!
# Variable bindings

The names of one scope, each bound to an object. A binding holds one reference. Names are kept in
ascending order, which is the order they are listed and released in.
-/

namespace Terrain

structure Binding where
  value : ObjectId
  isConst : Bool
  deriving Repr, DecidableEq, Inhabited

/-- Bindings of one scope, ascending by name. -/
structure Bindings where
  items : Dictionary Binding
  deriving Repr, DecidableEq, Inhabited

namespace Bindings

def empty : Bindings := ⟨[]⟩

def get? (bindings : Bindings) (name : String) : Option Binding := bindings.items.get? name

def contains (bindings : Bindings) (name : String) : Bool := (bindings.get? name).isSome

def size (bindings : Bindings) : Nat := bindings.items.length

def isEmpty (bindings : Bindings) : Bool := bindings.items.isEmpty

/-- Binds a name, replacing its old binding. -/
def insert (bindings : Bindings) (name : String) (binding : Binding) : Bindings :=
  ⟨Dictionary.insert name binding bindings.items⟩

/-- Binds a new name; `none` when the scope already has it. -/
def declare? (bindings : Bindings) (name : String) (value : ObjectId) (isConst : Bool) :
    HeapM (Option Bindings) := do
  if bindings.contains name then return none
  Heap.addRef value
  return some (bindings.insert name ⟨value, isConst⟩)

/-- Binds a name of the scope to another object; `none` when it is read-only. -/
def rebind? (bindings : Bindings) (name : String) (binding : Binding) (value : ObjectId) :
    HeapM (Option Bindings) := do
  if binding.isConst then return none
  if binding.value = value then return some bindings
  Heap.addRef value
  Heap.release binding.value
  return some (bindings.insert name { binding with value })

/-- Drops every binding. -/
def releaseAll (bindings : Bindings) : HeapM Unit :=
  Heap.releaseAll (bindings.items.map fun item => item.2.value)

/-- One line for every binding. -/
def lines (bindings : Bindings) (heap : Heap) : List String :=
  bindings.items.map fun (name, binding) =>
    (if binding.isConst then "const " else "") ++ name ++ s!" = #{binding.value} " ++
      heap.describeCell binding.value Value.describe

def dump (bindings : Bindings) (heap : Heap) : String :=
  String.join ((bindings.lines heap).map (· ++ "\n"))

end Bindings

end Terrain
