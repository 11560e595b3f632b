import FighterData.Cell
import FighterData.Palette
import FighterData.Script
import FighterData.Sprite

/-! Entries of an object binary. An entry is a header of four pointers relative to its start, and
the blocks they point at: cells, sprites, script and, for the player, palettes. Each block starts
where the one before it ends. -/
namespace FighterData

namespace Entry

def headerLayout : Layout :=
  List.replicate 4 .u32

def headerSize : Nat := 16

/-- Cell, sprite and palette blocks are padded to a multiple of this. -/
def blockAlignment : Nat := 16

def scriptPage : Int := 0x1000

def scriptRemainder : Int := 0xA00

/-- The zeros that bring a script block to a fixed remainder of the page size. -/
def scriptPadding (length : Int) : Int :=
  (scriptRemainder - length) % scriptPage

theorem scriptPadding_bounds (length : Int) :
    0 ≤ scriptPadding length ∧ scriptPadding length < scriptPage := by
  unfold scriptPadding scriptPage
  omega

theorem add_scriptPadding_emod (length : Int) :
    (length + scriptPadding length) % scriptPage = scriptRemainder := by
  unfold scriptPadding scriptPage scriptRemainder
  omega

def readHeader (start : Int) : Reader (List Int) := do
  Reader.seek start
  let pointers ← Reader.fields headerLayout
  Reader.expectFill (start + headerSize) (start + pointers.getD 0 0) 0 "Entry header gap"
  return pointers

def readScript {α : Type} (script : Reader α) (start stop : Int) : Reader α := do
  Reader.seek start
  let value ← script
  let place ← Reader.position
  Reader.expectFill place stop 0 "Script padding"
  return value

def scriptBlock (script : Bytes) : Bytes :=
  script ++ Bytes.filled 0 (scriptPadding script.length).toNat

/-- Where each block starts when the first one starts at `running`. -/
def pointersFrom (running : Nat) : List Bytes → List Int
  | [] => []
  | block :: rest => running :: pointersFrom (running + block.length) rest

/-- The header and the blocks; `extra` fills the header words behind the pointers. -/
def join (blocks : List Bytes) (extra : List Int) : Except Fault Bytes := do
  let header ← headerLayout.encode (pointersFrom headerSize blocks ++ extra)
  return header ++ blocks.flatten

end Entry

/-- The alias lists name the slots that share the entry of the slot before them. -/
structure PlayerEntry where
  cells : List Cell := []
  sprites : List Sprite := []
  script : PlayerScript := {}
  palettes : List Palette := []
  cellAliases : List Int := []
  paletteAliases : List Int := []
deriving DecidableEq

structure ObjectEntry where
  cells : List Cell := []
  sprites : List Sprite := []
  script : ObjectScript := {}
  unused : Int := 0
  cellAliases : List Int := []
deriving DecidableEq

namespace PlayerEntry

def read (start stop : Int) : Reader PlayerEntry := do
  let pointers ← Entry.readHeader start
  let sprite := start + pointers.getD 1 0
  let body := start + pointers.getD 2 0
  let palette := start + pointers.getD 3 0
  let (cells, cellAliases) ← Cell.readArray (start + pointers.getD 0 0) sprite
  let sprites ← Sprite.readArray sprite body
  let script ← Entry.readScript PlayerScript.read body palette
  let (palettes, paletteAliases) ← Palette.readArray palette stop
  Reader.note
    (.player start cells.length sprites.length script.actions.length palettes.length)
  return ⟨cells, sprites, script, palettes, cellAliases, paletteAliases⟩

def encode (entry : PlayerEntry) : Except Fault Bytes := do
  let cells ← Cell.encodeArray entry.cells entry.cellAliases
  let sprites ← Sprite.encodeArray entry.sprites
  let script ← entry.script.encode
  let palettes ← Palette.encodeArray entry.palettes entry.paletteAliases
  Entry.join
    [Alignment.pad cells Entry.blockAlignment, Alignment.pad sprites Entry.blockAlignment,
      Entry.scriptBlock script, Alignment.pad palettes Entry.blockAlignment] []

end PlayerEntry

namespace ObjectEntry

def read (start stop : Int) : Reader ObjectEntry := do
  let pointers ← Entry.readHeader start
  let sprite := start + pointers.getD 1 0
  let body := start + pointers.getD 2 0
  let (cells, cellAliases) ← Cell.readArray (start + pointers.getD 0 0) sprite
  let sprites ← Sprite.readArray sprite body
  let script ← Entry.readScript ObjectScript.read body stop
  Reader.note (.object start cells.length sprites.length script.actions.length)
  return ⟨cells, sprites, script, pointers.getD 3 0, cellAliases⟩

def encode (entry : ObjectEntry) : Except Fault Bytes := do
  let cells ← Cell.encodeArray entry.cells entry.cellAliases
  let sprites ← Sprite.encodeArray entry.sprites
  let script ← entry.script.encode
  Entry.join
    [Alignment.pad cells Entry.blockAlignment, Alignment.pad sprites Entry.blockAlignment,
      Entry.scriptBlock script] [entry.unused]

end ObjectEntry

end FighterData
