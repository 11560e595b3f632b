import FighterData.Command.Line

/-! The program: the files that the arguments name are loaded, the command runs on them, and what
it changed is stored. -/
namespace FighterData.Main

/-- The path of a location, relative to the working folder or to the root. -/
def textOf : Location → String
  | "/" :: names => "/" ++ String.intercalate "/" names
  | [] => "."
  | names => String.intercalate "/" names

def loadLocation (workspace : Workspace) (location : Location) : IO Workspace := do
  let here ← IO.currentDir
  let place := here / textOf location
  if ← place.isDir then
    return workspace.put location .folder
  else if ← place.pathExists then
    let contents ← IO.FS.readBinFile place
    return workspace.put location (.file contents.toList)
  else
    return workspace

def loadMembers (workspace : Workspace) (location : Location) : IO Workspace := do
  let here ← IO.currentDir
  let place := here / textOf location
  if ← place.isDir then
    let members ← place.readDir
    members.foldlM (fun loaded member => loadLocation loaded (location ++ [member.fileName]))
      workspace
  else
    return workspace

/-- Loads everything on the way to a path, and the members of the folder it leads to. -/
def loadPath (workspace : Workspace) (text : String) : IO Workspace := do
  let path := Path.ofString text
  let ways := (List.range (path.parts.length + 1)).map fun count =>
    { path with parts := path.parts.take count }
  let load := fun (loaded : Workspace) (way : Path) =>
    match loaded.locate way with
    | .ok location => loadLocation loaded location
    | .error _ => return loaded
  let loaded ← ways.foldlM load workspace
  match loaded.locate path with
  | .ok location => loadMembers loaded location
  | .error _ => return loaded

def storeItem (before : Workspace) (item : Location × Item) : IO Unit := do
  if before.itemAt item.1 = some item.2 then
    return ()
  match item.2 with
  | .folder => IO.FS.createDirAll (textOf item.1)
  | .file contents => IO.FS.writeBinFile (textOf item.1) contents.toByteArray

/-- Runs one command line; the answer is the exit status. -/
def execute (arguments : List String) : IO UInt32 := do
  let before ← arguments.foldlM loadPath {}
  let report := Command.run before arguments
  report.workspace.items.forM (storeItem before)
  report.notes.forM fun note => IO.eprintln note.text
  IO.print report.printed
  return report.status.toUInt32

end FighterData.Main

def main (arguments : List String) : IO UInt32 :=
  FighterData.Main.execute arguments
