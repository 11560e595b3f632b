import FighterData.Command.Job
import FighterData.Edit

/-! Commands on scripts: writing one as a listing, and replacing one by a listing. -/
namespace FighterData.Command
open Text

def exportScript (file output key : String) : Job Unit := do
  let path := Path.ofString file
  let target := Path.ofString output
  let (binary, _) ← loadBinary path
  let entry ← check (binary.select key)
  let text ← check (Edit.listing binary entry)
  writeText target text
  print ("Exported " ++ path.name ++ " [" ++ key ++ "] -> " ++ target.name ++ " ("
    ++ decimal (binary.actions entry).length ++ " actions)")

/-- Whether the last of the actions ends the script. -/
def endsInScriptEnd (actions : List Action) : Except Fault Bool :=
  match actions.getLast? with
  | none => .ok false
  | some last => last.endsScript

/-- Decodes the rebuilt file again and compares the actions of the entry. -/
def checkImported (target : Path) (key : String) (actions : List Action) : Job Unit := do
  let (reloaded, _) ← loadBinary target
  let entry ← check (reloaded.select key)
  if reloaded.actions entry ≠ actions then
    throw (.notReproduced target.name)
  print "[OK] Rebuilt file decodes back to the imported script"

def warnUnended (source : Path) (ended : Bool) : Job Unit :=
  if ended then return ()
  else print ("[WARN] " ++ source.name ++ ": last action does not end in ScriptEnd")

/-- The rebuilt file is written before it is checked. -/
def importScript (file listing output key : String) (verified : Bool) : Job Unit := do
  let path := Path.ofString file
  let source := Path.ofString listing
  let target := Path.ofString output
  let (binary, wrapper) ← loadBinary path
  let entry ← check (binary.select key)
  let text ← readText source
  let actions ← check (Listing.parse text)
  let ended ← check (endsInScriptEnd actions)
  warnUnended source ended
  saveBinary (binary.setActions entry actions) target wrapper
  print ("Rebuilt " ++ path.name ++ " [" ++ key ++ "] -> " ++ target.name ++ " ("
    ++ decimal actions.length ++ " actions)")
  if verified then checkImported target key actions

end FighterData.Command
