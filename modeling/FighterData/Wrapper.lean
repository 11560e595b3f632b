import FighterData.Word
import FighterData.Zlib

/-! Compressed files: a magic text, the sizes of the contents and of the compressed stream, zeros up
to sixteen bytes, and the stream. Anything that starts with no magic is not compressed. -/
namespace FighterData

inductive Wrapper where
  | zcmp
  | dfasfpac
deriving DecidableEq, Repr

namespace Wrapper

def name : Wrapper → String
  | zcmp => "ZCMP"
  | dfasfpac => "DFASFPAC"

def magic : Wrapper → Bytes
  | zcmp => [0x5A, 0x43, 0x4D, 0x50]
  | dfasfpac => [0x44, 0x46, 0x41, 0x53, 0x46, 0x50, 0x41, 0x43]

def headerSize : Nat := 16

def sizesLayout : Layout :=
  [.u32, .u32]

def detect (data : Bytes) : Option Wrapper :=
  if zcmp.magic.isPrefixOf data then some zcmp
  else if dfasfpac.magic.isPrefixOf data then some dfasfpac
  else none

/-- The two sizes behind the magic: of the contents and of the stream. -/
def readSizes (wrapper : Wrapper) (data : Bytes) : Except Fault (Nat × Nat) :=
  let place := wrapper.magic.length
  if data.length < place + sizesLayout.size then
    .error (.shortHeader place sizesLayout.size data.length)
  else
    .ok (Bytes.toNat (Bytes.slice data place (place + 4)),
      Bytes.toNat (Bytes.slice data (place + 4) (place + 8)))

def unwrap (wrapper : Wrapper) (data : Bytes) : Except Fault Bytes := do
  let (contents, compressed) ← wrapper.readSizes data
  let stream := Bytes.slice data headerSize (headerSize + compressed)
  if stream.length ≠ compressed then
    throw (.mismatch (.wrapperCut wrapper.name stream.length compressed) none)
  let payload ← (Zlib.decompress stream).mapError Fault.stream
  if payload.length ≠ contents then
    throw (.mismatch (.wrapperSize wrapper.name contents payload.length) none)
  return payload

/-- The contents of compressed data; other data are their own contents. -/
def contents (data : Bytes) : Except Fault Bytes :=
  match detect data with
  | none => .ok data
  | some wrapper => wrapper.unwrap data

def wrap (wrapper : Wrapper) (data : Bytes) : Except Fault Bytes := do
  let stream := Zlib.compress data
  let sizes ← sizesLayout.encode [data.length, stream.length]
  let header := wrapper.magic ++ sizes
  return header ++ Bytes.filled 0 (headerSize - header.length) ++ stream

theorem detect_append (wrapper : Wrapper) (rest : Bytes) :
    detect (wrapper.magic ++ rest) = some wrapper := by
  cases wrapper <;> rfl

end Wrapper

end FighterData
