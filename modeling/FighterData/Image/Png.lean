import FighterData.Image
import FighterData.Zlib

/-! Image files: a signature and a sequence of chunks with checksums, of which the header, the
palette and the compressed rows count. Rows are written as they are; any of the five row filters is
undone when reading. Samples of sixteen bits and interlaced files are not read. -/
namespace FighterData.Png

def signature : Bytes :=
  [0x89, 0x50, 0x4E, 0x47, 0x0D, 0x0A, 0x1A, 0x0A]

def word (value : Nat) : Bytes :=
  (Bytes.ofNat 4 value).reverse

def readWord (data : Bytes) : Nat :=
  Bytes.toNat (data.take 4).reverse

def crcStep (crc : UInt32) : Nat → UInt32
  | 0 => crc
  | bits + 1 => crcStep (if crc &&& 1 = 1 then (crc >>> 1) ^^^ 0xEDB88320 else crc >>> 1) bits

/-- The cyclic checksum of a chunk's type and contents. -/
def crc (data : Bytes) : Nat :=
  let last := data.foldl (fun crc byte => crcStep (crc ^^^ byte.toUInt32) 8) 0xFFFFFFFF
  (last ^^^ 0xFFFFFFFF).toNat

structure Chunk where
  type : Bytes
  contents : Bytes

def headerType : Bytes := [0x49, 0x48, 0x44, 0x52]
def paletteType : Bytes := [0x50, 0x4C, 0x54, 0x45]
def dataType : Bytes := [0x49, 0x44, 0x41, 0x54]
def endType : Bytes := [0x49, 0x45, 0x4E, 0x44]

def Chunk.encode (chunk : Chunk) : Bytes :=
  word chunk.contents.length ++ chunk.type ++ chunk.contents
    ++ word (crc (chunk.type ++ chunk.contents))

/-- The chunks up to the end chunk; a chunk takes twelve bytes at least. -/
def readChunks : Nat → Bytes → Option (List Chunk)
  | 0, _ => none
  | budget + 1, data =>
      let size := readWord data
      let type := Bytes.slice data 4 8
      let contents := Bytes.slice data 8 (8 + size)
      if data.length < size + 12 then none
      else if readWord (data.drop (8 + size)) ≠ crc (type ++ contents) then none
      else if type = endType then some []
      else (readChunks budget (data.drop (size + 12))).map (⟨type, contents⟩ :: ·)

/-- The number of samples of a pixel for each kind of color that a header can name. -/
def sampleCount? : Nat → Option Nat
  | 0 => some 1
  | 2 => some 3
  | 3 => some 1
  | 4 => some 2
  | 6 => some 4
  | _ => none

def modeColor : ImageMode → Nat
  | .rgba => 6
  | .rgb => 2
  | .greyAlpha => 4
  | .grey => 0
  | .indexed => 3
  | .bilevel => 0

/-- The colors of a palette; a last one of fewer than three bytes does not count. -/
def wholeColors (palette : Bytes) : Nat :=
  min 256 (palette.length / 3)

/-- The number of colors of an indexed image, of which there is one at least. -/
def colorsOf (image : Image) : Nat :=
  max 1 (wholeColors image.palette)

/-- The bits of a sample. An indexed image takes no more than its colors need. -/
def depthOf (image : Image) : Nat :=
  match image.mode with
  | .bilevel => 1
  | .indexed =>
      if colorsOf image ≤ 2 then 1 else if colorsOf image ≤ 4 then 2
      else if colorsOf image ≤ 16 then 4 else 8
  | _ => 8

structure Header where
  width : Nat
  height : Nat
  depth : Nat
  color : Nat
  samples : Nat

def Header.rowSize (header : Header) : Nat :=
  (header.width * header.samples * header.depth + 7) / 8

/-- How far back the sample to the left of a byte stands. -/
def Header.reach (header : Header) : Nat :=
  max 1 (header.samples * header.depth / 8)

def readHeader? (contents : Bytes) : Option Header :=
  match contents.drop 8 with
  | [depth, color, 0, 0, 0] =>
      (sampleCount? color.toNat).map fun samples =>
        ⟨readWord contents, readWord (contents.drop 4), depth.toNat, color.toNat, samples⟩
  | _ => none

/-- Of left, above and corner the one nearest to left plus above minus corner. -/
def paeth (left above corner : Nat) : Nat :=
  let guess : Int := left + above - corner
  let toLeft := (guess - left).natAbs
  let toAbove := (guess - above).natAbs
  let toCorner := (guess - corner).natAbs
  if toLeft ≤ toAbove && toLeft ≤ toCorner then left
  else if toAbove ≤ toCorner then above
  else corner

def predicted (filter left above corner : Nat) : Nat :=
  match filter with
  | 1 => left
  | 2 => above
  | 3 => (left + above) / 2
  | 4 => paeth left above corner
  | _ => 0

/-- Undoes the filter of a row, given the row above it. -/
def unfilter (filter reach : Nat) (above row : Array UInt8) : Bytes → Array UInt8
  | [] => row
  | byte :: rest =>
      let place := row.size
      let at_ := fun (line : Array UInt8) => if reach ≤ place then line.getD (place - reach) 0 else 0
      let guess :=
        predicted filter (at_ row).toNat (above.getD place 0).toNat (at_ above).toNat
      unfilter filter reach above (row.push (byte + UInt8.ofNat guess)) rest

def readRows (header : Header) (above : Array UInt8) : Nat → Bytes → Option Bytes
  | 0, _ => some []
  | _ + 1, [] => none
  | count + 1, filter :: data =>
      let raw := data.take header.rowSize
      if raw.length < header.rowSize || 4 < filter.toNat then none
      else
        let row := unfilter filter.toNat header.reach above #[] raw
        (readRows header row count (data.drop header.rowSize)).map (row.toList ++ ·)

/-- The samples of a byte that holds several, the highest bits first. -/
def spreadByte (depth : Nat) (byte : UInt8) : Bytes :=
  (List.range (8 / depth)).map fun place =>
    UInt8.ofNat ((byte.toNat >>> (8 - depth * (place + 1))) % 1 <<< depth)

/-- Samples of fewer than eight bits, one a byte, without the padding of the rows. -/
def spreadRows (header : Header) (data : Bytes) : Bytes :=
  (Image.rows header.rowSize header.height data).flatMap fun row =>
    (row.flatMap (spreadByte header.depth)).take header.width

def scaleGrey (depth : Nat) (sample : UInt8) : UInt8 :=
  UInt8.ofNat (sample.toNat * 255 / (1 <<< depth - 1))

def imageOf? (header : Header) (palette data : Bytes) : Option Image :=
  let image := fun mode data => some ⟨mode, header.width, header.height, data, []⟩
  match header.color, header.depth with
  | 0, 1 => image .bilevel data
  | 0, 2 => image .grey ((spreadRows header data).map (scaleGrey 2))
  | 0, 4 => image .grey ((spreadRows header data).map (scaleGrey 4))
  | 0, 8 => image .grey data
  | 2, 8 => image .rgb data
  | 3, 8 => some ⟨.indexed, header.width, header.height, data, palette⟩
  | 3, 1 => some ⟨.indexed, header.width, header.height, spreadRows header data, palette⟩
  | 3, 2 => some ⟨.indexed, header.width, header.height, spreadRows header data, palette⟩
  | 3, 4 => some ⟨.indexed, header.width, header.height, spreadRows header data, palette⟩
  | 4, 8 => image .greyAlpha data
  | 6, 8 => image .rgba data
  | _, _ => none

def contentsOf (chunks : List Chunk) (type : Bytes) : Bytes :=
  (chunks.filter (·.type = type)).flatMap Chunk.contents

/-- The image of a file, or nothing if the file is no image of a mode that is read. -/
def decode? (file : Bytes) : Option Image :=
  if !signature.isPrefixOf file then none
  else do
    let chunks ← readChunks file.length (file.drop signature.length)
    let first ← chunks.head?
    if first.type ≠ headerType then none
    let header ← readHeader? first.contents
    let raw ← (Zlib.decompress (contentsOf chunks dataType)).toOption
    let data ← readRows header #[] header.height raw
    imageOf? header (contentsOf chunks paletteType) data

def headerOf (image : Image) : Bytes :=
  word image.width ++ word image.height
    ++ [UInt8.ofNat (depthOf image), UInt8.ofNat (modeColor image.mode), 0, 0, 0]

/-- An index in so many bits. In a single bit every index but zero is one; otherwise the lowest bits
are kept. -/
def narrow (depth : Nat) (index : UInt8) : Nat :=
  if depth = 1 then (if index = 0 then 0 else 1) else index.toNat % 1 <<< depth

/-- Samples of fewer than eight bits in bytes, the first in the highest bits. -/
def packRow (depth width : Nat) (row : Bytes) : Bytes :=
  (Image.rows (8 / depth) ((width * depth + 7) / 8) row).map fun group =>
    UInt8.ofNat ((List.range (8 / depth)).foldl
      (fun total place => total * 1 <<< depth + narrow depth (group.getD place 0)) 0)

def rowOf (image : Image) (row : Bytes) : Bytes :=
  if image.mode = .indexed && depthOf image < 8 then packRow (depthOf image) image.width row
  else row

/-- The rows of an image, each behind a filter byte of zero. -/
def plainRows (image : Image) : Bytes :=
  (Image.rows (image.mode.rowSize image.width) image.height image.data).flatMap fun row =>
    0 :: rowOf image row

/-- The colors of an indexed image, with black for what the palette lacks. -/
def colorBytes (image : Image) : Bytes :=
  let known := wholeColors image.palette
  image.palette.take (3 * known) ++ Bytes.filled 0 (3 * (colorsOf image - known))

def encode (image : Image) : Bytes :=
  let palette := if image.mode = .indexed then [Chunk.mk paletteType (colorBytes image)] else []
  let chunks := Chunk.mk headerType (headerOf image) :: palette
    ++ [⟨dataType, Zlib.store (plainRows image)⟩, ⟨endType, []⟩]
  signature ++ chunks.flatMap Chunk.encode

def files : ImageFiles :=
  ⟨encode, decode?⟩

end FighterData.Png
