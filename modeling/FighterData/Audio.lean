import FighterData.PointerTable

/-! The audio section: a big-endian table of blobs that nothing here interprets. The last blob
reaches to the end of the file. -/
namespace FighterData

structure Audio where
  blobs : List Bytes := []
deriving DecidableEq

namespace Audio

def readBlob (table : PointerTable) (length : Int) (slot : Nat) : Reader Bytes := do
  let (place, size) ← Reader.lift (table.resolve slot length)
  Reader.seek place
  Reader.bytes size

def read (start : Int) : Reader Audio := do
  let table ← PointerTable.read start .big PointerTable.defaultAlignment
  let size ← Reader.size
  if table.offsets.isEmpty then
    if (size : Int) ≠ start + table.size then
      Reader.refuse (.leftover "Empty audio section" (start + table.size) size)
    return {}
  let blobs ← Reader.forEach (readBlob table (size - start)) (List.range table.offsets.length)
  Reader.note (.audio start blobs.length)
  return ⟨blobs⟩

def encode (audio : Audio) : Except Fault Bytes := do
  let (table, data) ← PointerTable.write audio.blobs PointerTable.defaultAlignment .big false []
  return table ++ data

end Audio

end FighterData
