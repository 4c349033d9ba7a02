import Terrain.Machine.Bindings
import Terrain.Script.Instruction

/-!
# Stacks of the script machine

Three stacks, each with a limit: operands, the nested blocks of a call, and calls. The top of a stack
is the head of its list. An operand owns one reference, and a block owns the references of its
bindings.

* `OperandStack` — `push`, `pop`, `take`, `truncate`.
* `Block`, `BlockStack` — a run of code with a cursor and its local bindings.
* `Call`, `CallStack` — an active call with its blocks and the operands below it.
-/

namespace Terrain

/-- Ends an action with an error. -/
def raise {m : Type → Type} [MonadExceptOf Failure m] {α : Type} (error : Error) : m α :=
  throwThe Failure (.error error)

/-! ## Operands -/

structure OperandStack where
  items : List ObjectId
  limit : Nat
  deriving Repr, DecidableEq, Inhabited

namespace OperandStack

def size (stack : OperandStack) : Nat := stack.items.length

def isEmpty (stack : OperandStack) : Bool := stack.items.isEmpty

/-- Pushes an object, which gains a reference. -/
def push (stack : OperandStack) (id : ObjectId) (location : Location) : HeapM OperandStack := do
  if stack.limit ≤ stack.size then
    raise (.resourceLimit
      ⟨.objectStackOverflow, location, s!"object stack exceeded {stack.limit} entries"⟩)
  Heap.addRef id
  return { stack with items := id :: stack.items }

/-- The top and the stack below it; the reference passes to the caller. -/
def pop (stack : OperandStack) : Except Error (ObjectId × OperandStack) :=
  match stack.items with
  | id :: items => .ok (id, { stack with items })
  | [] => .error (.intermediateCode "object stack underflow")

/-- The top, which stays. -/
def top (stack : OperandStack) : Except Error ObjectId :=
  match stack.items with
  | id :: _ => .ok id
  | [] => .error (.intermediateCode "object stack is empty")

def checkSize (stack : OperandStack) (count : Nat) : Except Error Unit :=
  if stack.size < count then
    .error (.intermediateCode s!"object stack holds {stack.size} entries, {count} needed")
  else .ok ()

/-- The topmost objects in the order they were pushed, and the stack below them; the references pass
to the caller. -/
def take (stack : OperandStack) (count : Nat) : Except Error (List ObjectId × OperandStack) := do
  stack.checkSize count
  return ((stack.items.take count).reverse, { stack with items := stack.items.drop count })

/-- Releases the operands above a height, the top first. -/
def truncate (stack : OperandStack) (height : Nat) : HeapM OperandStack := do
  let above := stack.size - height
  Heap.releaseAll (stack.items.take above)
  return { stack with items := stack.items.drop above }

/-- One line for every operand, the top first. -/
def dump (stack : OperandStack) (heap : Heap) : String :=
  String.join <| stack.items.map fun id =>
    s!"#{id}: " ++ heap.describeCell id (fun value => s!"{value.typeName} {value.describe}") ++ "\n"

end OperandStack

/-! ## Blocks -/

/-- A run of code in execution. -/
structure Block where
  location : Location
  code : CodeBlock
  cursor : Nat
  looping : Bool
  locals : Bindings
  deriving Inhabited

namespace Block

def start (location : Location) (code : CodeBlock) (looping : Bool) : Block :=
  ⟨location, code, 0, looping, .empty⟩

/-- Whether no instruction is left. -/
def isFinished (block : Block) : Bool := block.code.length ≤ block.cursor

/-- Back to the first instruction, without the locals of the last round. -/
def restart (block : Block) : HeapM Block := do
  block.locals.releaseAll
  return { block with cursor := 0, locals := .empty }

end Block

/-- The nested blocks of a call, innermost first. -/
structure BlockStack where
  entries : List Block
  limit : Nat
  deriving Inhabited

namespace BlockStack

def empty (limit : Nat) : BlockStack := ⟨[], limit⟩

def size (stack : BlockStack) : Nat := stack.entries.length

def isEmpty (stack : BlockStack) : Bool := stack.entries.isEmpty

def push (stack : BlockStack) (block : Block) : Except Error BlockStack :=
  if stack.limit ≤ stack.size then
    .error (.resourceLimit
      ⟨.codeBlockStackOverflow, block.location, s!"code block stack exceeded {stack.limit} entries"⟩)
  else .ok { stack with entries := block :: stack.entries }

/-- Leaves the innermost block and drops its locals. -/
def pop (stack : BlockStack) : HeapM BlockStack := do
  match stack.entries with
  | block :: entries =>
    block.locals.releaseAll
    return { stack with entries }
  | [] => raise (.intermediateCode "code block stack underflow")

def top? (stack : BlockStack) : Option Block := stack.entries.head?

/-- The block at a height, counted from the outermost. -/
def at? (stack : BlockStack) (height : Nat) : Option Block := stack.entries.reverse[height]?

/-- Replaces the innermost block. -/
def setTop (stack : BlockStack) (block : Block) : BlockStack :=
  { stack with entries := block :: stack.entries.drop 1 }

/-- Replaces the block at a height, counted from the outermost. -/
def setAt (stack : BlockStack) (height : Nat) (block : Block) : BlockStack :=
  { stack with entries := (stack.entries.reverse.set height block).reverse }

/-- Leaves all blocks, innermost first. -/
def releaseAll (stack : BlockStack) : HeapM Unit :=
  stack.entries.forM fun block => block.locals.releaseAll

end BlockStack

/-! ## Calls -/

/-- An active call. Its result goes right above the operands below `base`. -/
structure Call where
  location : Location
  function : String
  blocks : BlockStack
  base : Nat
  deriving Inhabited

/-- Active calls, innermost first. -/
structure CallStack where
  entries : List Call
  limit : Nat
  deriving Inhabited

namespace CallStack

def empty (limit : Nat) : CallStack := ⟨[], limit⟩

def size (stack : CallStack) : Nat := stack.entries.length

def isEmpty (stack : CallStack) : Bool := stack.entries.isEmpty

def push (stack : CallStack) (call : Call) : Except Error CallStack :=
  if stack.limit ≤ stack.size then
    .error (.resourceLimit ⟨.callStackOverflow, call.location,
      s!"call stack exceeded {stack.limit} entries calling {call.function}"⟩)
  else .ok { stack with entries := call :: stack.entries }

/-- The call at a height, counted from the outermost. -/
def at? (stack : CallStack) (height : Nat) : Option Call := stack.entries.reverse[height]?

/-- Replaces the call at a height, counted from the outermost. -/
def setAt (stack : CallStack) (height : Nat) (call : Call) : CallStack :=
  { stack with entries := (stack.entries.reverse.set height call).reverse }

/-- The innermost block of the innermost call. -/
def topBlock? (stack : CallStack) : Option Block := stack.entries.head?.bind (·.blocks.top?)

/-- Changes the blocks of the innermost call. -/
def setTopBlocks (stack : CallStack) (blocks : BlockStack) : CallStack :=
  match stack.entries with
  | call :: rest => { stack with entries := { call with blocks } :: rest }
  | [] => stack

/-- Replaces the innermost block of the innermost call. -/
def setTopBlock (stack : CallStack) (block : Block) : CallStack :=
  match stack.entries with
  | call :: rest => { stack with entries := { call with blocks := call.blocks.setTop block } :: rest }
  | [] => stack

/-- Leaves all calls, innermost first. -/
def releaseAll (stack : CallStack) : HeapM Unit :=
  stack.entries.forM fun call => call.blocks.releaseAll

/-! ### Listing -/

/-- The lines of a text, without an empty one at the end. -/
def textLines (text : String) : List String :=
  let lines := (text.splitOn "\n").map fun line =>
    if line.endsWith "\r" then (line.dropEnd 1).toString else line
  if lines.getLast? = some "" then lines.dropLast else lines

def dumpBlock (heap : Heap) (index : Nat) (block : Block) : String :=
  s!"  block {index} at {block.location.describe}" ++ (if block.looping then " (loop)" else "") ++
    s!": {block.cursor}/{block.code.length}\n" ++
    String.join ((textLines (block.locals.dump heap)).map fun line => "    " ++ line ++ "\n")

def dumpCall (heap : Heap) (index : Nat) (call : Call) : String :=
  let blocks := call.blocks.entries
  s!"[{index}] {call.function} (called at {call.location.describe}, stack base {call.base})\n" ++
    String.join (blocks.zipIdx.map fun (block, i) => dumpBlock heap (blocks.length - 1 - i) block)

/-- Every call with its blocks and locals, innermost first. -/
def dump (stack : CallStack) (heap : Heap) : String :=
  String.join <| stack.entries.zipIdx.map fun (call, i) =>
    dumpCall heap (stack.entries.length - 1 - i) call

end CallStack

end Terrain
