/-!
# Status of a stepped machine

The script machine and the renderer both advance one step at a time.
-/

namespace Terrain

/-- Whether a machine takes steps. -/
inductive Status where
  | ready
  | finished
  /-- A step failed; the machine refuses further steps. -/
  | faulted
  deriving Repr, DecidableEq

def Status.describe : Status → String
  | ready => "ready"
  | finished => "finished"
  | faulted => "faulted"

/-- What a step that went well leaves. -/
inductive Progress where
  | running
  | finished
  deriving Repr, DecidableEq

def Progress.describe : Progress → String
  | running => "running"
  | finished => "finished"

end Terrain
