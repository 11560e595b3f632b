import FighterData.EntryArray

/-! Collision cells: any number of boxes, and the sprite that is shown with them. -/
namespace FighterData

structure Box where
  x : Int := 0
  y : Int := 0
  width : Int := 0
  height : Int := 0
  kind : Int := 0
deriving DecidableEq

namespace Box

def layout : Layout :=
  [.i16, .i16, .u16, .u16, .u32]

def ofFields (values : List Int) : Box where
  x := values.getD 0 0
  y := values.getD 1 0
  width := values.getD 2 0
  height := values.getD 3 0
  kind := values.getD 4 0

def fields (box : Box) : List Int :=
  [box.x, box.y, box.width, box.height, box.kind]

theorem ofFields_fields (box : Box) : ofFields box.fields = box := rfl

def read : Reader Box := do
  let values ← Reader.fields layout
  return ofFields values

def encode (box : Box) : Except Fault Bytes :=
  layout.encode box.fields

end Box

structure SpriteInfo where
  x : Int := 0
  y : Int := 0
  unknown : Int := 0
  index : Int := 0
deriving DecidableEq

namespace SpriteInfo

def layout : Layout :=
  [.i16, .i16, .u32, .u16]

def ofFields (values : List Int) : SpriteInfo where
  x := values.getD 0 0
  y := values.getD 1 0
  unknown := values.getD 2 0
  index := values.getD 3 0

def fields (info : SpriteInfo) : List Int :=
  [info.x, info.y, info.unknown, info.index]

theorem ofFields_fields (info : SpriteInfo) : ofFields info.fields = info := rfl

def read : Reader SpriteInfo := do
  let values ← Reader.fields layout
  return ofFields values

def encode (info : SpriteInfo) : Except Fault Bytes :=
  layout.encode info.fields

end SpriteInfo

structure Cell where
  boxes : List Box := []
  info : SpriteInfo := {}
deriving DecidableEq

namespace Cell

/-- The bytes of a cell are padded to a multiple of this. -/
def alignment : Nat := 4

def read : Reader Cell := do
  let count ← Reader.field .u32 .little
  let boxes ← Reader.times Box.read count.toNat
  let info ← SpriteInfo.read
  return ⟨boxes, info⟩

def encode (cell : Cell) : Except Fault Bytes := do
  let count ← encodeField .little .u32 cell.boxes.length
  let boxes ← cell.boxes.mapM Box.encode
  let info ← cell.info.encode
  return count ++ boxes.flatten ++ info

def readArray (start stop : Int) : Reader (List Cell × List Int) := do
  let (cells, aliases) ← EntryArray.read start stop read "Cell array" "Cell"
  Reader.note (.cells start cells.length aliases.length)
  return (cells, aliases)

def encodeArray (cells : List Cell) (aliases : List Int) : Except Fault Bytes := do
  let encoded ← cells.mapM encode
  EntryArray.join (encoded.map (Alignment.pad · alignment)) aliases

end Cell

end FighterData
