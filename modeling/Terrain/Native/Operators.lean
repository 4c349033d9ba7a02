import Terrain.Machine.Variables
import Terrain.Native.Arguments
import Terrain.Number.Remainder

/-!
# Operators

Operators are functions with names of their own. Arithmetic rejects results that are not finite, and
products and quotients that vanish though no operand does.
-/

namespace Terrain

namespace NativeCall

variable {α : Type}

/-- Ends a query because an operator cannot take a value. -/
def refuseOperand (call : NativeCall) (actual : Value) : Query α :=
  call.refuse .incorrectOperandType s!"operator {call.name} cannot take {actual.typeName}"

def numberOperand (call : NativeCall) (index : Nat) : Query Float := do
  match ← call.value index with
  | .number value => return value
  | other => call.refuseOperand other

def booleanOperand (call : NativeCall) (index : Nat) : Query Bool := do
  match ← call.value index with
  | .boolean value => return value
  | other => call.refuseOperand other

/-- Rejects a result that is not finite, and a zero where the operands promise another value. -/
def checkNumber (call : NativeCall) (value : Float) (isNonzero : Bool) : Query Float :=
  if value.isNaN then
    call.refuse .mathDefinitionRange s!"{call.name} is not defined for its arguments"
  else if !Number.isFinite value then call.refuse .numberOverflow s!"{call.name} overflowed"
  else if value == 0.0 && isNonzero then call.refuse .numberUnderflow s!"{call.name} underflowed"
  else return value

end NativeCall

namespace Native

open Machine

/-! ## Values -/

/-- Numbers are added; with a text on either side, both texts are joined. -/
def add (call : NativeCall) : Query Value := do
  call.expect 2 2
  match ← call.value 0, ← call.value 1 with
  | .text left, right => return .text (left ++ right.describe)
  | left, .text right => return .text (left.describe ++ right)
  | _, _ =>
    let sum := (← call.numberOperand 0) + (← call.numberOperand 1)
    return .number (← call.checkNumber sum false)

/-- Difference of two numbers, or the opposite of one. -/
def subtract (call : NativeCall) : Query Value := do
  call.expect 1 2
  let first ← call.numberOperand 0
  if call.count = 1 then return .number (← call.checkNumber (-first) false)
  return .number (← call.checkNumber (first - (← call.numberOperand 1)) false)

def multiply (call : NativeCall) : Query Value := do
  call.expect 2 2
  let a ← call.numberOperand 0
  let b ← call.numberOperand 1
  return .number (← call.checkNumber (a * b) (a != 0.0 && b != 0.0))

/-- The operands of a division, the second of which is not zero. -/
def quotientOperands (call : NativeCall) : Query (Float × Float) := do
  call.expect 2 2
  let a ← call.numberOperand 0
  let b ← call.numberOperand 1
  if b == 0.0 then call.refuse .divisionByZero s!"{Decimal.plain a} {call.name} 0"
  else return (a, b)

def divide (call : NativeCall) : Query Value := do
  let (a, b) ← quotientOperands call
  return .number (← call.checkNumber (a / b) (a != 0.0))

/-- Remainder with the sign of the first operand. -/
def remainder (call : NativeCall) : Query Value := do
  let (a, b) ← quotientOperands call
  return .number (← call.checkNumber (Number.remainder a b) false)

/-- Whether two objects are equal the way array keys are. -/
def equal (call : NativeCall) : Query Bool := do
  call.expect 2 2
  let first ← call.object 0
  let second ← call.object 1
  let left := (← Query.value first).key first
  let right := (← Query.value second).key second
  return left == right

def compare (relation : Float → Float → Bool) (call : NativeCall) : Query Value := do
  call.expect 2 2
  return .boolean (relation (← call.numberOperand 0) (← call.numberOperand 1))

/-- Both operands are always looked at. -/
def combine (connective : Bool → Bool → Bool) (call : NativeCall) : Query Value := do
  call.expect 2 2
  return .boolean (connective (← call.booleanOperand 0) (← call.booleanOperand 1))

def negate (call : NativeCall) : Query Value := do
  call.expect 1 1
  return .boolean !(← call.booleanOperand 0)

/-- The operator of a name that answers a new value. -/
def valueOperator? (call : NativeCall) : Option (Query Value) :=
  match call.name with
  | "+" => some (add call)
  | "-" => some (subtract call)
  | "*" => some (multiply call)
  | "/" => some (divide call)
  | "%" => some (remainder call)
  | "==" => some do return .boolean (← equal call)
  | "!=" => some do return .boolean !(← equal call)
  | "<" => some (compare (fun a b => a < b) call)
  | "<=" => some (compare (fun a b => a ≤ b) call)
  | ">" => some (compare (fun a b => b < a) call)
  | ">=" => some (compare (fun a b => b ≤ a) call)
  | "&&" => some (combine (· && ·) call)
  | "||" => some (combine (· || ·) call)
  | "!" => some (negate call)
  | _ => none

/-! ## Increments -/

/-- The variable an increment acts on, its number and the number one step further. -/
def incrementOperand (delta : Float) (call : NativeCall) : Query (Target × Float × Float) := do
  call.expect 1 1
  match ← call.value 0 with
  | .reference target =>
    match ← Query.value (← Query.binding target).value with
    | .number old => return (target, old, ← call.checkNumber (old + delta) false)
    | other => call.refuseOperand other
  | other =>
    call.refuse .incorrectOperandType
      s!"operator {call.name} needs a variable, got {other.typeName}"

/-- Moves the number of a variable by one step; answers the new or the old number. -/
def increment (delta : Float) (answersNew : Bool) (call : NativeCall) : MachineM ObjectId := do
  let (target, old, new) ← inspect (incrementOperand delta call)
  let stored ← onHeap (Heap.register (.number new))
  onHeap (Heap.addRef stored)
  andFinally (assign target stored call.location) (onHeap (Heap.release stored))
  onHeap (Heap.register (.number (if answersNew then new else old)))

/-! ## Indexing -/

/-- The array that is indexed. -/
def indexed (call : NativeCall) : Query (ObjectId × ScriptArray) := do
  let id ← call.object 0
  match ← Query.value id with
  | .array items => return (id, items)
  | other => call.refuse .incorrectOperandType s!"{other.typeName} cannot be indexed"

/-- The value stored under a key. -/
def getIndex (call : NativeCall) : Query ObjectId := do
  call.expect 2 2
  let (_, items) ← indexed call
  let key ← call.object 1
  let value ← Query.value key
  match items.get? (value.key key) with
  | some entry => return entry.value
  | none => call.refuse .arrayKeyNotFound s!"key {value.describe} not found"

/-- The array, the key if there is one, and the value of an assignment. -/
def indexAssignment (call : NativeCall) : Query (ObjectId × Option ObjectId × ObjectId) := do
  call.expect 2 3
  let (array, _) ← indexed call
  if call.count = 2 then return (array, none, ← call.object 1)
  return (array, some (← call.object 1), ← call.object 2)

/-- Stores a value under a key, or appends it when no key is given; answers the value. -/
def setIndex (call : NativeCall) : MachineM ObjectId := do
  let (array, key?, value) ← inspect (indexAssignment call)
  match key? with
  | some key => onHeap (Heap.setEntry array key value)
  | none => onHeap (Heap.pushBack array value)
  return value

/-- The operator of a name. -/
def operator? (call : NativeCall) : Option (MachineM ObjectId) :=
  match valueOperator? call with
  | some query => some do onHeap (Heap.register (← inspect query))
  | none =>
    match call.name with
    | "++pre" => some (increment 1.0 true call)
    | "++post" => some (increment 1.0 false call)
    | "--pre" => some (increment (-1.0) true call)
    | "--post" => some (increment (-1.0) false call)
    | "[]" => some (inspect (getIndex call))
    | "[]=" => some (setIndex call)
    | _ => none

end Native

end Terrain
