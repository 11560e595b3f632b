import FighterData.Image.PaletteImage
import FighterData.Listing
import FighterData.Selection

/-! Edits of a binary. Inserting behind the end appends; removing needs a member to remove. The
alias lists are data of their own: no edit of an array adjusts them. -/
namespace FighterData.Edit

def insertAt {α : Type} (items : List α) (index : Nat) (item : α) : List α :=
  items.take index ++ item :: items.drop index

theorem length_insertAt {α : Type} (items : List α) (index : Nat) (item : α) :
    (insertAt items index item).length = items.length + 1 := by
  simp [insertAt]
  omega

def removeAt {α : Type} (items : List α) (index : Nat) : Except Fault (List α) :=
  if items.isEmpty then .error .popEmpty
  else if index < items.length then .ok (items.eraseIdx index)
  else .error .popOutside

/-- The cells and the alias list of one entry. -/
def cells (binary : ObjectBinary) : EntryRef → List Cell
  | .player => binary.player.cells
  | .object index => (binary.objects[index]?.map (·.cells)).getD []

def setCells (binary : ObjectBinary) (entry : EntryRef) (cells : List Cell) : ObjectBinary :=
  match entry with
  | .player => { binary with player := { binary.player with cells := cells } }
  | .object index => binary.modifyObject index fun object => { object with cells := cells }

def setCellAliases (binary : ObjectBinary) (entry : EntryRef) (slots : List Int) : ObjectBinary :=
  match entry with
  | .player => { binary with player := { binary.player with cellAliases := slots } }
  | .object index => binary.modifyObject index fun object => { object with cellAliases := slots }

def sprites (binary : ObjectBinary) : EntryRef → List Sprite
  | .player => binary.player.sprites
  | .object index => (binary.objects[index]?.map (·.sprites)).getD []

def setSprites (binary : ObjectBinary) (entry : EntryRef) (sprites : List Sprite) : ObjectBinary :=
  match entry with
  | .player => { binary with player := { binary.player with sprites := sprites } }
  | .object index => binary.modifyObject index fun object => { object with sprites := sprites }

def setPalettes (binary : ObjectBinary) (palettes : List Palette) : ObjectBinary :=
  { binary with player := { binary.player with palettes := palettes } }

def setPaletteAliases (binary : ObjectBinary) (slots : List Int) : ObjectBinary :=
  { binary with player := { binary.player with paletteAliases := slots } }

def insertCell (binary : ObjectBinary) (entry : EntryRef) (index : Nat) (cell : Cell) :
    ObjectBinary :=
  setCells binary entry (insertAt (cells binary entry) index cell)

def removeCell (binary : ObjectBinary) (entry : EntryRef) (index : Nat) :
    Except Fault ObjectBinary := do
  let rest ← removeAt (cells binary entry) index
  return setCells binary entry rest

def insertSprite (binary : ObjectBinary) (entry : EntryRef) (index : Nat) (sprite : Sprite) :
    ObjectBinary :=
  setSprites binary entry (insertAt (sprites binary entry) index sprite)

def removeSprite (binary : ObjectBinary) (entry : EntryRef) (index : Nat) :
    Except Fault ObjectBinary := do
  let rest ← removeAt (sprites binary entry) index
  return setSprites binary entry rest

def insertPalette (binary : ObjectBinary) (index : Nat) (palette : Palette) : ObjectBinary :=
  setPalettes binary (insertAt binary.player.palettes index palette)

/-- Replaces the colors of one palette by those of an image. -/
def importImage (binary : ObjectBinary) (index : Nat) (image : Image) :
    Except Fault ObjectBinary :=
  match binary.player.palettes[index]? with
  | none => .error .noSuchSlot
  | some palette => do
      let changed ← palette.withImage image
      return setPalettes binary (binary.player.palettes.set index changed)

def insertObject (binary : ObjectBinary) (index : Nat) (object : ObjectEntry) : ObjectBinary :=
  { binary with objects := insertAt binary.objects index object }

def removeObject (binary : ObjectBinary) (index : Nat) : Except Fault ObjectBinary := do
  let rest ← removeAt binary.objects index
  return { binary with objects := rest }

/-- The instructions of one action, when it has a list of them that others can join. -/
def instructionsOf (actions : List Action) (action : Nat) : Except Fault (List Instruction) :=
  match actions[action]? with
  | none => .error .noSuchSlot
  | some found =>
      match found.body with
      | .number _ => .error (.bareNumber .insert)
      | .code instructions => .ok instructions

/-- Inserts into the instructions of one action. -/
def insertInstruction (binary : ObjectBinary) (entry : EntryRef) (action index : Nat)
    (instruction : Instruction) : Except Fault ObjectBinary := do
  let actions := binary.actions entry
  let instructions ← instructionsOf actions action
  let extend := fun old : Action =>
    { old with body := .code (insertAt instructions index instruction) }
  return binary.setActions entry (actions.modify action extend)

/-- Replaces the actions of an entry by those of a listing, which is read before the entry is
looked for. -/
def importListing (binary : ObjectBinary) (key text : String) : Except Fault ObjectBinary := do
  let actions ← Listing.parse text
  let entry ← binary.select key
  return binary.setActions entry actions

def listing (binary : ObjectBinary) : EntryRef → Except Fault String
  | .player => Listing.ofPlayer binary.player.script
  | .object index => Listing.ofObject ⟨binary.actions (.object index)⟩

end FighterData.Edit
