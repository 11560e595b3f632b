import FighterData.Command.Job
import FighterData.Image.PaletteImage

/-! Commands on palettes: writing them as image files, and taking their colors from image files. -/
namespace FighterData.Command
open Text

def imageName (index : Nat) : String :=
  "pal_" ++ decimalPadded 3 index ++ ".png"

def imagePath (folder : Path) (index : Nat) : Path :=
  folder.join (imageName index)

def exportFrom (files : ImageFiles) (folder : Path) (index : Nat) : List Palette → Job Unit
  | [] => return ()
  | palette :: rest => do
      let image ← check palette.toImage
      writeFile (imagePath folder index) (files.encode image)
      print ("-> " ++ imageName index)
      exportFrom files folder (index + 1) rest

def exportPalettes (files : ImageFiles) (file folderName : String) : Job Unit := do
  let folder := Path.ofString folderName
  ensureFolders folder
  let (binary, _) ← loadBinary (Path.ofString file)
  exportFrom files folder 0 binary.player.palettes
  print ("\n[OK] Exported " ++ decimal binary.player.palettes.length ++ " palettes")

/-- The palette with the colors of its image file, and whether there was one. -/
def importPalette (files : ImageFiles) (folder : Path) (index : Nat) (palette : Palette) :
    Job (Palette × Bool) := do
  let path := imagePath folder index
  let desk ← get
  match ← refused path (desk.workspace.find path) with
  | none =>
      print ("[WARN] No image for palette " ++ decimal index ++ ": " ++ path.name)
      return (palette, false)
  | some _ =>
      let contents ← readFile path
      match files.decode? contents with
      | none => throw (.notImage path.text)
      | some image =>
          let changed ← check (palette.withImage image)
          print ("<- " ++ path.name)
          return (changed, true)

def importFrom (files : ImageFiles) (folder : Path) (index : Nat) :
    List Palette → Job (List (Palette × Bool))
  | [] => return []
  | palette :: rest => do
      let first ← importPalette files folder index palette
      let others ← importFrom files folder (index + 1) rest
      return first :: others

/-- Whether the palette of an alias slot still equals the one before it. -/
def stillShared (palettes : List Palette) (slot : Int) : Bool :=
  palettes[slot.toNat]? == palettes[slot.toNat - 1]?

def warnSplit (slot : Int) : Job Unit :=
  print ("[WARN] Palette " ++ decimal slot ++ " no longer matches palette " ++ decimal (slot - 1)
    ++ ", storing it separately")

/-- Palettes without an image stay as they are; an alias whose palette has changed is given up. -/
def importPalettes (files : ImageFiles) (file folderName output : String) : Job Unit := do
  let folder := Path.ofString folderName
  let target := Path.ofString output
  let (binary, wrapper) ← loadBinary (Path.ofString file)
  let imported ← importFrom files folder 0 binary.player.palettes
  let palettes := imported.map (·.1)
  let aliases := binary.player.paletteAliases
  (aliases.filter fun slot => !stillShared palettes slot).forM warnSplit
  let player := { binary.player with
    palettes := palettes
    paletteAliases := aliases.filter (stillShared palettes) }
  saveBinary { binary with player := player } target wrapper
  print ("\n[OK] Replaced " ++ decimal (imported.countP (·.2)) ++ " palettes -> " ++ target.name)

end FighterData.Command
