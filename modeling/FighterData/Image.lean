import FighterData.Bytes

/-! Raster images in the modes that palettes are exchanged in. Samples are bytes, rows go from top
to bottom; bilevel images hold eight pixels a byte, the highest bit first, and pad every row. -/
namespace FighterData

inductive ImageMode where
  | rgba
  | rgb
  | greyAlpha
  | grey
  | indexed
  | bilevel
deriving DecidableEq, Repr

/-- Only indexed images use the palette: three bytes for each index. -/
structure Image where
  mode : ImageMode
  width : Nat
  height : Nat
  data : Bytes
  palette : Bytes := []
deriving DecidableEq

namespace ImageMode

/-- The number of bytes of one row. -/
def rowSize (mode : ImageMode) (width : Nat) : Nat :=
  match mode with
  | rgba => 4 * width
  | rgb => 3 * width
  | greyAlpha => 2 * width
  | grey => width
  | indexed => width
  | bilevel => (width + 7) / 8

end ImageMode

structure Pixel where
  red : UInt8
  green : UInt8
  blue : UInt8
  alpha : UInt8
deriving DecidableEq, Repr

namespace Image

def greyPixel (level : UInt8) : Pixel :=
  ⟨level, level, level, 255⟩

/-- An index without three bytes of its own is black. -/
def indexedPixel (palette : Bytes) (index : UInt8) : Pixel :=
  match palette.drop (3 * index.toNat) with
  | red :: green :: blue :: _ => ⟨red, green, blue, 255⟩
  | _ => ⟨0, 0, 0, 255⟩

/-- The pixels of one byte of a bilevel row. -/
def bitPixels (byte : UInt8) : List Pixel :=
  [7, 6, 5, 4, 3, 2, 1, 0].map fun bit =>
    greyPixel (if byte.toNat.testBit bit then 255 else 0)

def pixelsOf (mode : ImageMode) (palette : Bytes) : Bytes → List Pixel
  | data =>
    match mode with
    | .rgba => quads data
    | .rgb => triples data
    | .greyAlpha => pairs data
    | .grey => data.map greyPixel
    | .indexed => data.map (indexedPixel palette)
    | .bilevel => data.flatMap bitPixels
where
  quads : Bytes → List Pixel
    | r :: g :: b :: a :: rest => ⟨r, g, b, a⟩ :: quads rest
    | _ => []
  triples : Bytes → List Pixel
    | r :: g :: b :: rest => ⟨r, g, b, 255⟩ :: triples rest
    | _ => []
  pairs : Bytes → List Pixel
    | level :: a :: rest => ⟨level, level, level, a⟩ :: pairs rest
    | _ => []

/-- Cuts `count` rows of equal size off the data. -/
def rows (size : Nat) : Nat → Bytes → List Bytes
  | 0, _ => []
  | count + 1, data => data.take size :: rows size count (data.drop size)

/-- The pixels, row by row: a missing alpha is opaque, and grey stands for all three colors. -/
def pixels (image : Image) : List Pixel :=
  (rows (image.mode.rowSize image.width) image.height image.data).flatMap fun row =>
    (pixelsOf image.mode image.palette row).take image.width

end Image

/-- How images are kept in files. Contents that are no image are not opened. -/
structure ImageFiles where
  encode : Image → Bytes
  decode? : Bytes → Option Image

end FighterData
