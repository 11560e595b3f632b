import FighterData.Fault.Message
import FighterData.ObjectBinary
import FighterData.Workspace
import FighterData.Wrapper

/-! Jobs: what a command does to the files, to its output and to the notes of the decoders. All
three outlive a fault, so what was written or printed before it stays. -/
namespace FighterData.Command

structure Desk where
  workspace : Workspace
  printed : String := ""
  notes : List Note := []

abbrev Job := ExceptT Fault (StateM Desk)

def print (line : String) : Job Unit :=
  modify fun desk => { desk with printed := desk.printed ++ line ++ "\n" }

def refused {α : Type} (path : Path) (result : Except Refusal α) : Job α :=
  match result with
  | .ok value => return value
  | .error cause => throw (.file cause path.text)

def check {α : Type} (result : Except Fault α) : Job α :=
  match result with
  | .ok value => return value
  | .error fault => throw fault

def readFile (path : Path) : Job Bytes := do
  let desk ← get
  refused path (desk.workspace.readFile path)

def writeFile (path : Path) (contents : Bytes) : Job Unit := do
  let desk ← get
  let workspace ← refused path (desk.workspace.writeFile path contents)
  set { desk with workspace := workspace }

/-- Text files are written in UTF-8. -/
def writeText (path : Path) (text : String) : Job Unit :=
  writeFile path (Text.utf8 text)

def readText (path : Path) : Job String := do
  let contents ← readFile path
  check ((Text.ofUtf8 contents).mapError Fault.encoding)

/-- Folders made before one is refused stay. -/
def ensureFolders (path : Path) : Job Unit := do
  let desk ← get
  let (workspace, result) := desk.workspace.ensureFolders path
  set { desk with workspace := workspace }
  check (result.mapError fun (cause, place) => .file cause place.text)

/-- Decodes a binary and keeps the notes, whether it succeeds or not. -/
def decode (data : Bytes) : Job ObjectBinary := do
  let outcome := ObjectBinary.readAll data
  modify fun desk => { desk with notes := desk.notes ++ outcome.notes }
  check outcome.result

/-- The binary in a file, and how the file was compressed. -/
def loadBinary (path : Path) : Job (ObjectBinary × Option Wrapper) := do
  let data ← readFile path
  let contents ← check (Wrapper.contents data)
  let binary ← decode contents
  return (binary, Wrapper.detect data)

def pack (wrapper : Option Wrapper) (data : Bytes) : Except Fault Bytes :=
  match wrapper with
  | none => .ok data
  | some wrapper => wrapper.wrap data

def saveBinary (binary : ObjectBinary) (path : Path) (wrapper : Option Wrapper) : Job Unit := do
  let data ← check binary.encode
  let packed ← check (pack wrapper data)
  writeFile path packed

end FighterData.Command
