import FighterData.EntryArray

/-! Palettes: eight words of unknown use and 256 packed colors, encoded as one flat record. -/
namespace FighterData

structure Palette where
  unknown : List Int := List.replicate 8 0
  colors : List Int := List.replicate 256 0
deriving DecidableEq

namespace Palette

def colorCount : Nat := 256

def layout : Layout :=
  List.replicate 8 .u16 ++ List.replicate colorCount .u32

def read : Reader Palette := do
  let values ← Reader.fields layout
  return ⟨values.take 8, values.drop 8⟩

def encode (palette : Palette) : Except Fault Bytes :=
  layout.encode (palette.unknown ++ palette.colors)

def readArray (start stop : Int) : Reader (List Palette × List Int) :=
  EntryArray.read start stop read "Palette array" "Palette"

def encodeArray (palettes : List Palette) (aliases : List Int) : Except Fault Bytes := do
  let encoded ← palettes.mapM encode
  EntryArray.join encoded aliases

end Palette

end FighterData
