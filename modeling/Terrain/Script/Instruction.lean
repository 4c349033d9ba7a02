import Terrain.Failure

/-!
# Instructions

The instruction set of the script machine. Loads push one object. Calls pop their arguments, and the
instance of a member call, which was pushed last, and push one result. Control flow is structured:
branches and loops carry their code as nested blocks.
-/

namespace Terrain

inductive Operation where
  | loadNumber (value : Float)
  | loadText (value : String)
  | loadBoolean (value : Bool)
  | loadNull
  /-- Pushes the value of a variable. -/
  | loadVariable (name : String)
  /-- Pushes a reference to a variable. -/
  | loadReference (name : String)
  /-- Pops an instance and pushes its member. -/
  | loadMember (name : String)
  /-- Assigns the top of the stack, which stays there. -/
  | storeVariable (name : String)
  /-- Pops a value and binds it in the innermost block. -/
  | declareLocal (name : String) (isConst : Bool)
  | declareGlobal (name : String) (isConst : Bool)
  | callGlobal (name : String) (argumentCount : Nat)
  | callMember (name : String) (argumentCount : Nat)
  | pop
  /-- Pops a boolean and runs one of the branches. -/
  | ifElse (thenBranch elseBranch : List (Location × Operation))
  /-- Runs the body again and again until it is left. -/
  | loop (body : List (Location × Operation))
  | block (body : List (Location × Operation))
  /-- Leaves `depth` blocks, the outermost of which must be a loop. -/
  | breakLoop (depth : Nat)
  /-- Leaves `depth - 1` blocks and restarts the loop they are in. -/
  | continueLoop (depth : Nat)
  /-- Leaves the current function with the top of its part of the stack as result. -/
  | returnCall
  | yieldNamed (name : String)
  | yieldMain
  deriving Inhabited

/-- An operation with the place in the source it was compiled from. -/
abbrev Instruction := Location × Operation

/-- A straight run of instructions. -/
abbrev CodeBlock := List Instruction

namespace Operation

def name : Operation → String
  | loadNumber _ => "load_const_number"
  | loadText _ => "load_const_string"
  | loadBoolean _ => "load_const_boolean"
  | loadNull => "load_null"
  | loadVariable _ => "load_scope_value"
  | loadReference _ => "load_scope_reference"
  | loadMember _ => "load_member_value"
  | storeVariable _ => "store_scope_value"
  | declareLocal _ _ => "declare_local_value"
  | declareGlobal _ _ => "declare_global_value"
  | callGlobal _ _ => "call_global"
  | callMember _ _ => "call_member"
  | pop => "pop"
  | ifElse _ _ => "if_else"
  | loop _ => "loop"
  | block _ => "block"
  | breakLoop _ => "break"
  | continueLoop _ => "continue"
  | returnCall => "return"
  | yieldNamed _ => "yield_as_named"
  | yieldMain => "yield_as_main"

end Operation

end Terrain
