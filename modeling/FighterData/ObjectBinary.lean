import FighterData.Audio
import FighterData.Entry

/-! Object binaries: a table of absolute offsets of the player, of any number of objects and of the
audio section, and those parts. Offsets are no part of the value: reading resolves them, and
encoding computes them anew from the bottom up. -/
namespace FighterData

structure ObjectBinary where
  player : PlayerEntry := {}
  objects : List ObjectEntry := []
  audio : Audio := {}
deriving DecidableEq

namespace ObjectBinary

/-- The audio offset is the last word before the closing word of the table, so it is read again
from there, eight bytes back. -/
def read : Reader ObjectBinary := do
  let table ← PointerTable.read 0 .little PointerTable.defaultAlignment
  let starts := table.offsets
  if starts.length < 2 then
    Reader.refuse (.mismatch (.topLevelSlots starts.length) (some 0))
  let behind ← Reader.position
  Reader.seek (behind - 8)
  let audioStart ← Reader.field .u32 .little
  let player ← PlayerEntry.read (starts.getD 0 0) (starts.getD 1 0)
  let bounds := starts.tail.dropLast.zip starts.tail.tail
  let objects ← Reader.forEach (fun bound : Int × Int => ObjectEntry.read bound.1 bound.2) bounds
  let audio ← Audio.read audioStart
  let size ← Reader.size
  Reader.note (.binary size objects.length audio.blobs.length)
  return ⟨player, objects, audio⟩

def readAll (data : Bytes) : Outcome ObjectBinary :=
  read.run data.toArray 0

def decode (data : Bytes) : Except Fault ObjectBinary :=
  (readAll data).result

def encode (binary : ObjectBinary) : Except Fault Bytes := do
  let player ← binary.player.encode
  let objects ← binary.objects.mapM ObjectEntry.encode
  let audio ← binary.audio.encode
  let (table, data) ← PointerTable.write (player :: objects ++ [audio])
    PointerTable.defaultAlignment .little false []
  return table ++ data

end ObjectBinary

end FighterData
