import FighterData.Command.Job

/-! Commands on whole binaries: a summary, and the check that decoding and encoding again gives the
same bytes. -/
namespace FighterData.Command
open Text

def compressionNote : Option Wrapper → String
  | none => ""
  | some wrapper => " (" ++ wrapper.name ++ " compressed)"

def objectSummary (index : Nat) (object : ObjectEntry) : String :=
  "  Object " ++ decimal index ++ ": " ++ decimal object.cells.length ++ " cells, "
    ++ decimal object.sprites.length ++ " sprites, "
    ++ decimal object.script.actions.length ++ " actions, unused=0x" ++ hexPadded 8 object.unused

def objectSummaries (index : Nat) : List ObjectEntry → List String
  | [] => []
  | object :: rest => objectSummary index object :: objectSummaries (index + 1) rest

def summary (name : String) (binary : ObjectBinary) (wrapper : Option Wrapper) : List String :=
  let player := binary.player
  (name ++ ": " ++ decimal binary.objects.length ++ " objects, "
      ++ decimal binary.audio.blobs.length ++ " audio blobs" ++ compressionNote wrapper)
    :: ("  Player: " ++ decimal player.cells.length ++ " cells, "
      ++ decimal player.sprites.length ++ " sprites, "
      ++ decimal player.script.actions.length ++ " actions, "
      ++ decimal player.palettes.length ++ " palettes")
    :: objectSummaries 0 binary.objects

def showInfo (file : String) : Job Unit := do
  let path := Path.ofString file
  let (binary, wrapper) ← loadBinary path
  (summary path.name binary wrapper).forM print

/-- Whether a file is rebuilt byte for byte; the first difference is printed otherwise. -/
def verify (file : String) : Job Bool := do
  let path := Path.ofString file
  let packed ← readFile path
  let data ← check (Wrapper.contents packed)
  let binary ← decode data
  let rebuilt ← check binary.encode
  match Bytes.firstMismatch data rebuilt with
  | none =>
      print ("[OK] " ++ path.name ++ ": " ++ decimal data.length ++ " bytes rebuilt identically")
      return true
  | some offset =>
      print ("[ERROR] " ++ path.name ++ ": first difference at 0x" ++ hex offset ++ " (original "
        ++ decimal data.length ++ " bytes, rebuilt " ++ decimal rebuilt.length ++ " bytes)")
      return false

def logName : String := "verify_log.txt"

/-- Verifies one file of a folder. A fault is part of the report. -/
def verifyMember (folder : Path) (name : String) : Job (Bool × String) :=
  tryCatch
    (do
      let same ← verify (folder.join name).text
      return (same, name ++ if same then " OK" else " MISMATCH"))
    fun fault => do
      print ("[ERROR] " ++ name ++ ": " ++ fault.message)
      return (false, name ++ " ERROR " ++ fault.message)

def isFile (path : Path) : Job Bool := do
  let desk ← get
  match ← refused path (desk.workspace.find path) with
  | some (.file _) => return true
  | _ => return false

/-- Verifies every file of a folder, except for the log that it leaves there. -/
def verifyFolder (folderName : String) : Job Unit := do
  let folder := Path.ofString folderName
  let desk ← get
  let names ← refused folder (desk.workspace.members folder)
  let files ← names.filterM fun name => do
    let found ← isFile (folder.join name)
    return found && name ≠ logName
  let reports ← files.mapM (verifyMember folder)
  let log := folder.join logName
  writeText log (String.intercalate "\n" (reports.map (·.2)))
  print ("\n[OK] " ++ decimal (reports.countP (·.1)) ++ "/" ++ decimal files.length
    ++ " files rebuilt identically")
  print ("[OK] Log saved: " ++ log.text)

end FighterData.Command
