import Terrain.Native.Operators
import Terrain.Text.Replace

/-!
# Global functions

Points, elementary functions, random numbers and printing.
-/

namespace Terrain.Native

open Machine

def point (call : NativeCall) : Query Value := do
  call.expect 2 2
  return .point (← call.number 0) (← call.number 1)

/-- Folds a selection over all arguments, at least two. -/
def select (choose : Float → Float → Float) (call : NativeCall) : Query Value := do
  call.expect 2 argumentMax
  let first ← call.number 0
  let rest ← (List.range (call.count - 1)).mapM fun index => call.number (index + 1)
  return .number (rest.foldl choose first)

/-- A function of one number, defined where a test says so. -/
def unary (isDefined : Float → Bool) (f : Float → Float) (call : NativeCall) : Query Value := do
  call.expect 1 1
  let value ← call.number 0
  if !isDefined value then
    call.refuse .mathDefinitionRange s!"{call.name} is not defined for {Decimal.plain value}"
  else return .number (← call.checkNumber (f value) false)

/-- A power; one of a base other than zero must not vanish. -/
def power (call : NativeCall) : Query Value := do
  call.expect 2 2
  let base ← call.number 0
  let exponent ← call.number 1
  return .number (← call.checkNumber (base.pow exponent) (base != 0.0))

/-- The function of a name that answers a new value. -/
def valueFunction? (call : NativeCall) : Option (Query Value) :=
  match call.name with
  | "Point" => some (point call)
  | "Min" => some (select Number.lesser call)
  | "Max" => some (select Number.greater call)
  | "Abs" => some (unary (fun _ => true) Number.magnitude call)
  | "Sqrt" => some (unary (fun value => !(value < 0.0)) Float.sqrt call)
  | "Log" => some (unary (fun value => !(value ≤ 0.0)) Float.log call)
  | "Sin" => some (unary (fun _ => true) Float.sin call)
  | "Cos" => some (unary (fun _ => true) Float.cos call)
  | "Floor" => some (unary (fun _ => true) Number.floor call)
  | "Ceil" => some (unary (fun _ => true) Number.ceil call)
  | "Round" => some (unary (fun _ => true) Number.round call)
  | "Pow" => some (power call)
  | _ => none

/-! ## Random numbers -/

/-- The bounds of a random integer; `none` when a fraction is wanted. -/
def randomBounds (call : NativeCall) : Query (Option (Int × Int)) := do
  call.expect 0 2
  if call.count = 0 then return none
  call.expect 2 2
  let low ← call.number 0
  let high ← call.number 1
  if !Number.isWhole low || !Number.isWhole high || high < low then
    call.refuse .mathDefinitionRange
      (s!"Random needs integer bounds with min <= max, got {Decimal.plain low} and " ++
        Decimal.plain high)
  else return some (Number.truncateTo wideMin wideMax low, Number.truncateTo wideMin wideMax high)

/-- A fraction in `[0, 1)`, or an integer between two bounds. -/
def random (call : NativeCall) : MachineM ObjectId := do
  match ← inspect (randomBounds call) with
  | none =>
    let (value, random) := (← get).random.nextUnit
    modify fun machine => { machine with random }
    onHeap (Heap.register (.number value))
  | some (low, high) =>
    let (value, random) := (← get).random.nextInt low high
    modify fun machine => { machine with random }
    match value with
    | .ok value => onHeap (Heap.register (.number (Float.ofInt value)))
    | .error breach => throw (.breach breach)

/-! ## Printing -/

/-- The placeholder of an argument. -/
def placeholder (index : Nat) : String := "\x7b" ++ toString index ++ "\x7d"

/-- A message from its format: the placeholders of the texts are replaced one after the other. -/
def formatMessage (format : String) (texts : List String) : String :=
  texts.zipIdx.foldl (fun message (text, index) => Text.replace message (placeholder index) text)
    format

/-- The message of a call. -/
def message (call : NativeCall) : Query String := do
  call.expect 1 argumentMax
  let format ← call.text 0
  let texts ← (List.range (call.count - 1)).mapM fun index =>
    return (← call.value (index + 1)).describe
  return formatMessage format texts

/-- Prints a message; answers null. -/
def print (call : NativeCall) : MachineM ObjectId := do
  let message ← inspect (message call)
  modify fun machine => { machine with messages := machine.messages.push message }
  return (← get).null

/-- The global function of a name. -/
def function? (call : NativeCall) : Option (MachineM ObjectId) :=
  match valueFunction? call with
  | some query => some do onHeap (Heap.register (← inspect query))
  | none =>
    match call.name with
    | "Random" => some (random call)
    | "Print" => some (print call)
    | _ => none

end Terrain.Native
