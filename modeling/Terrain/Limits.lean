import Terrain.Json.Reader

/-!
# Limits

How far a script and a render may go. Limits come from a JSON document that may leave out any of
them.
-/

namespace Terrain

structure Limits where
  /-- Nested function calls. -/
  calls : Nat := 1000
  /-- Nested blocks in one call. -/
  blocks : Nat := 1000
  /-- Operands on the stack. -/
  operands : Nat := 10000
  /-- Recorded steps. -/
  steps : Nat := 100000
  /-- Bytes a step of a render may need. -/
  memory : Nat := 1073741824
  deriving Repr, DecidableEq, Inhabited

namespace Limits

/-- Reads the limits of the script machine. -/
def readMachine (limits : Limits) : Reader Limits := fun room tree => do
  let fields ← Reader.record ["call_stack_limit", "code_block_stack_limit", "object_stack_limit",
    "max_rendering_sequence_length"] room tree
  return { limits with
    calls := ← fields.optional "call_stack_limit" limits.calls Reader.size
    blocks := ← fields.optional "code_block_stack_limit" limits.blocks Reader.size
    operands := ← fields.optional "object_stack_limit" limits.operands Reader.size
    steps := ← fields.optional "max_rendering_sequence_length" limits.steps Reader.size }

/-- Reads the limits of the renderer. -/
def readRenderer (limits : Limits) : Reader Limits := fun room tree => do
  let fields ← Reader.record ["memory_limit"] room tree
  return { limits with memory := ← fields.optional "memory_limit" limits.memory Reader.size }

def read : Reader Limits := fun room tree => do
  let fields ← Reader.record ["vm", "renderer"] room tree
  let limits ← fields.optional "vm" {} (readMachine {})
  fields.optional "renderer" limits (readRenderer limits)

/-- The limits a document holds. -/
def ofText? (text : String) : Option Limits := Reader.document read text

end Limits

end Terrain
