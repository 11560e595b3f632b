import FighterData.Archive
import FighterData.Command.Job

/-! Commands on compressed files and on archives. -/
namespace FighterData.Command
open Text

def extractEntry (folder : Path) (entry : ArchiveEntry) : Job Unit := do
  let target := folder.join entry.outputName
  writeFile target entry.contents
  print ("-> " ++ target.name)

/-- The folder is made before the archive is looked at. -/
def extractAll (file folderName : String) : Job Unit := do
  let folder := Path.ofString folderName
  ensureFolders folder
  let data ← readFile (Path.ofString file)
  let entries ← check (Archive.read data)
  entries.forM (extractEntry folder)
  print ("\n[OK] Extraction complete: " ++ decimal entries.length ++ " files")

def findEntry (entries : List ArchiveEntry) (key : String) : Except Fault ArchiveEntry := do
  let index ← Archive.findIndex entries key
  match entries[index]? with
  | some entry => return entry
  | none => throw .noSuchSlot

def extractOne (file key output : String) : Job Unit := do
  let target := Path.ofString output
  let data ← readFile (Path.ofString file)
  let entries ← check (Archive.read data)
  let entry ← check (findEntry entries key)
  writeFile target entry.contents
  print ("Extracted " ++ entry.outputName ++ " -> " ++ target.name ++ " ("
    ++ decimal entry.contents.length ++ " bytes)")

def unpackFile (input output : String) : Job Unit := do
  let source := Path.ofString input
  let target := Path.ofString output
  let data ← readFile source
  match Wrapper.detect data with
  | none => throw (.notWrapped source.name)
  | some wrapper =>
      let payload ← check (wrapper.unwrap data)
      writeFile target payload
      print ("Decompressed " ++ source.name ++ " -> " ++ target.name ++ " (" ++ wrapper.name ++ ", "
        ++ decimal data.length ++ " -> " ++ decimal payload.length ++ " bytes)")

def packFile (input output : String) : Job Unit := do
  let source := Path.ofString input
  let target := Path.ofString output
  let data ← readFile source
  let packed ← check (Wrapper.zcmp.wrap data)
  writeFile target packed
  print ("Compressed " ++ source.name ++ " -> " ++ target.name ++ " (" ++ decimal data.length
    ++ " -> " ++ decimal packed.length ++ " bytes)")

end FighterData.Command
