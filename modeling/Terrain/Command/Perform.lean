import Terrain.Command.Basic
import Terrain.Command.Files
import Terrain.Command.MapFile
import Terrain.Command.Outcome
import Terrain.Machine.Step
import Terrain.Render.Renderer
import Terrain.Script.Format
import Terrain.Text.Blank

/-!
# Performing commands

Commands run in any monad that reaches files. A run of a script is given a number of steps it may
take.

* `Command.perform` — carries out a command.
* `respond` — from arguments to an outcome.
-/

namespace Terrain

namespace Command

open CommandM

variable {m : Type → Type} [Monad m]

/-! ## Reading -/

/-- Opens a document and reads it. -/
def load {α : Type} (files : Files m) (context path : String) (read? : String → Option α) :
    CommandM m α := do
  match ← (files.read path : m _) with
  | .error refusal => giveUp context [s!"cannot open {path}", refusal.describe]
  | .ok text? => match text? >>= read? with
    | some value => return value
    | none => giveUp context [Error.malformed.message]

def loadScript (files : Files m) (path : String) : CommandM m Script :=
  load files s!"load compiled script '{path}'" path Script.ofText?

def loadLimits (files : Files m) : Option String → CommandM m Limits
  | none => return {}
  | some path => load files s!"load configuration '{path}'" path Limits.ofText?

def declaredParameters (script : Script) : CommandM m Parameters :=
  orGiveUp "script parameter declarations" script.parameters

/-! ## Recording -/

/-- Takes over an override. One that does not fit the declarations changes nothing. -/
def applyOverride (parameters : Parameters) (text : String) : CommandM m Parameters :=
  match text.toList.dropWhile (· ≠ '=') with
  | [] => giveUp s!"parameter override '{text}' is not NAME=VALUE" []
  | _ :: value =>
    let name := Text.trim (text.toList.takeWhile (· ≠ '='))
    return (parameters.setText? name (Text.trim value)).getD parameters

/-- The parameters of a script as the settings choose them. -/
def chooseParameters (script : Script) (settings : RunSettings) : CommandM m Parameters := do
  let parameters ← declaredParameters script
  let parameters := { parameters with
    mapWidth := settings.width?.elim parameters.mapWidth parameters.mapWidth.set
    mapHeight := settings.height?.elim parameters.mapHeight parameters.mapHeight.set
    scale := settings.scale?.getD parameters.scale
    seed := settings.seed
    enabledMaps := settings.maps }
  settings.overrides.foldlM applyOverride parameters

/-- Runs a script, prints its messages and answers what it recorded. -/
def record (steps : Nat) (script : Script) (settings : RunSettings) (limits : Limits) :
    CommandM m Sequence := do
  let program : Program := ⟨script, ← chooseParameters script settings, limits⟩
  let machine ← orFail "create virtual machine" (Machine.start program)
  match Machine.runFor program steps machine with
  | .ok _ machine =>
    print (String.join (machine.messages.toList.map (· ++ "\n")))
    return machine.sequence
  | .error failure _ => orFail "run script" (.error failure)

/-! ## Commands -/

/-- A line on a rendered map. -/
def mapLine (name : String) (map : HeightMap) : String :=
  let ⟨position, size⟩ := map.logical
  s!"{name}: {size.width}x{size.height} at ({position.x}, {position.y}), " ++
    s!"fingerprint {HeightMap.hexadecimal map.fingerprint}\n"

/-- Writes a map into a folder. -/
def writeMap (files : Files m) (folder name : String) (map : HeightMap) : CommandM m Unit := do
  let path := pathInside folder (name ++ ".json")
  match ← (files.write path map.document.write : m _) with
  | .ok _ => return
  | .error refusal => giveUp s!"create '{path}'" [refusal.describe]

/-- Writes all maps into a folder, which is made first. -/
def writeMaps (files : Files m) (folder : String) (gallery : Gallery) : CommandM m Unit := do
  match ← (files.makeFolder folder : m _) with
  | .ok _ => gallery.toList.forM fun (name, map) => writeMap files folder name map
  | .error refusal => giveUp s!"create output directory '{folder}'" [refusal.describe]

def runScript (files : Files m) (steps : Nat) (settings : RunSettings) (render : RenderSettings) :
    CommandM m Unit := do
  let script ← loadScript files settings.script
  let limits ← loadLimits files settings.limits?
  let limits := { limits with memory := render.memory?.getD limits.memory }
  let sequence ← record steps script settings limits
  match Renderer.run (.start sequence limits.memory) with
  | .error failure _ => orFail "render" (.error failure)
  | .ok _ renderer =>
    if render.listing then remark (renderer.dump ++ "\n")
    remark (String.join (renderer.gallery.toList.map fun (name, map) => mapLine name map))
    if let some folder := render.folder? then writeMaps files folder renderer.gallery

def listSequence (files : Files m) (steps : Nat) (settings : RunSettings) : CommandM m Unit := do
  let script ← loadScript files settings.script
  let limits ← loadLimits files settings.limits?
  let sequence ← record steps script settings limits
  match Schedule.ofSequence sequence (.ofSteps sequence.steps) with
  | .error breach => throwThe Ending (.breach breach)
  | .ok schedule =>
    print (sequence.dump ++ s!"peak memory: {schedule.peak} B\n" ++ schedule.dump)

def listParameters (files : Files m) (path : String) : CommandM m Unit := do
  let script ← loadScript files path
  print (← declaredParameters script).dump

/-- Carries out a command. -/
def perform (files : Files m) (steps : Nat) : Command → CommandM m Unit
  | .run settings render => runScript files steps settings render
  | .sequence settings => listSequence files steps settings
  | .parameters path => listParameters files path

end Command

/-! ## From arguments to an outcome -/

def versionText : String := "relief 0.1.0\n"

def usageText : String :=
  String.join [
    "Usage: relief [--verbose] <COMMAND>\n\n",
    "Commands:\n",
    "  run       Run a compiled script and render its maps\n",
    "  sequence  Run a compiled script and print the recorded rendering sequence with its metadata\n",
    "  params    Print the parameters a compiled script declares\n",
    "  help      Print this message\n"]

/-- What comes of arguments that stand for no command. -/
def Command.Stop.outcome : Command.Stop → Outcome
  | .version => ⟨0, versionText, ""⟩
  | .help => ⟨0, usageText, ""⟩
  | .misuse => ⟨2, "", usageText⟩

/-- Reads arguments and carries out what they ask for. -/
def respond {m : Type → Type} [Monad m] (files : Files m) (steps : Nat) (arguments : List String) :
    m Outcome :=
  match Command.ofArguments arguments with
  | .error stop => return stop.outcome
  | .ok command => (command.perform files steps).outcome

end Terrain
