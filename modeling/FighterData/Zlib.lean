import FighterData.Deflate.Block
import FighterData.Deflate.Inflate
import FighterData.Deflate.Stored

/-! Compressed streams with a header of two bytes and a checksum of the output. What follows the
checksum is ignored. -/
namespace FighterData.Zlib

def checksumStep (sums : Nat × Nat) (byte : UInt8) : Nat × Nat :=
  let low := (sums.1 + byte.toNat) % 65521
  (low, (sums.2 + low) % 65521)

/-- Two running sums: of the bytes, and of the first sum. -/
def checksum (data : Bytes) : Nat :=
  let sums := data.foldl checksumStep (1, 0)
  sums.2 * 65536 + sums.1

/-- The header is a multiple of 31 as a big-endian number, and names the method, the window size
and whether a preset dictionary is needed. -/
def checkHeader (method flags : UInt8) (rest : Bytes) : Except StreamFault Unit :=
  if (method.toNat * 256 + flags.toNat) % 31 ≠ 0 then .error .header
  else if method.toNat % 16 ≠ 8 then .error .method
  else if method.toNat / 16 > 7 then .error .window
  else if flags.toNat.testBit 5 then
    if rest.length < 4 then .error .truncated else .error .dictionary
  else .ok ()

def decompress : Bytes → Except StreamFault Bytes
  | method :: flags :: rest => do
      checkHeader method flags rest
      let (out, behind) ← Deflate.inflate rest
      let (stated, _) ← Deflate.bytesOnto #[] 4 behind
      if Bytes.toNat stated.toList.reverse = checksum out.toList then .ok out.toList
      else .error .check
  | _ => .error .truncated

def framed (data stream : Bytes) : Bytes :=
  0x78 :: 0xDA :: stream ++ (Bytes.ofNat 4 (checksum data)).reverse

/-- A stream that holds the data as they are. -/
def store (data : Bytes) : Bytes :=
  framed data (Deflate.stored data)

/-- The most bytes that the stream of so many bytes takes. -/
def bound (size : Nat) : Nat :=
  size + size / 4096 + size / 16384 + size / 33554432 + 13

/-- A tight stream. It is read back and measured, so that nothing about the search for repeats and
the choice of codes has to be trusted. -/
def compress (data : Bytes) : Bytes :=
  let tight := framed data (Deflate.deflate data.toArray)
  if (decompress tight).toOption = some data ∧ tight.length ≤ bound data.length then tight
  else store data

end FighterData.Zlib
