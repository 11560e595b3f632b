import FighterData.EntryArray

/-! Sprites: a header of eight words and a payload that nothing here interprets. A sprite reaches
to the next offset, except the last one of an array, which has none: its end is the first place
where the payload looks finished, and the bytes that make it look so are kept as its terminator. -/
namespace FighterData

structure Sprite where
  header : List Int := List.replicate 8 0
  payload : Bytes := []
  terminator : Bytes := []
deriving DecidableEq

namespace Sprite

def headerLayout : Layout :=
  List.replicate 8 .u16

def headerSize : Nat := 16

/-- The number of equal bytes, FF or zero, that end a payload. -/
def fillSize : Nat := 8

def defaultTerminator : Bytes :=
  Bytes.filled 0xFF fillSize

/-- A closing word: its low half, and the step and the ceiling of its high half. -/
structure TailPattern where
  tag : Nat
  step : Nat
  ceiling : Nat

def tailPatterns : List TailPattern :=
  [⟨0x4, 0x4, 0x100⟩, ⟨0x8, 0x8, 0x200⟩, ⟨0x10, 0x10, 0x400⟩, ⟨0x20, 0x20, 0x800⟩]

def TailPattern.covers (pattern : TailPattern) (low high : Nat) : Bool :=
  low == pattern.tag && 0 < high && high ≤ pattern.ceiling && high % pattern.step == 0

/-- How many bytes at the end of `scanned` close a payload, none when it goes on. Fewer than four
bytes cannot be judged. -/
def terminatorSize (scanned : Bytes) : Except Fault Nat :=
  let tail := Bytes.lastBytes scanned fillSize
  if tail.length = fillSize && (Bytes.isFilled 0xFF tail || Bytes.isFilled 0 tail) then .ok fillSize
  else
    let word := Bytes.lastBytes scanned 4
    if word.length < 4 then .error (.shortBuffer 4)
    else
      let low := Bytes.toNat (word.take 2)
      let high := Bytes.toNat (word.drop 2)
      .ok (if tailPatterns.any (·.covers low high) then 4 else 0)

/-- Judges the payload at every multiple of four bytes, through the last eight bytes of it. -/
def scanWithin (buffer : Buffer) (start : Nat) (limit : Int) (position : Nat) :
    Nat → Except Fault (Bytes × Bytes)
  | 0 => .error (.noTerminator start limit)
  | words + 1 => do
      let next := position + 4
      let size ← terminatorSize (buffer.extract (max start (next - fillSize)) next).toList
      if size = 0 then scanWithin buffer start limit next words
      else
        return ((buffer.extract start (next - size)).toList,
          (buffer.extract (next - size) next).toList)

/-- The payload from `start` and its terminator, found before `limit`. -/
def findEnd (buffer : Buffer) (start : Nat) (limit : Int) : Except Fault (Bytes × Bytes) :=
  scanWithin buffer start limit start ((limit - start) / 4).toNat

/-- A sprite that ends where the next one starts. -/
def readBounded (table : PointerTable) (start stop : Int) (slot : Nat) : Reader Sprite := do
  let (place, length) ← Reader.lift (table.resolve slot (stop - start))
  if length ≤ 0 then
    let offset ← Reader.lift (table.get slot)
    let following ← Reader.lift (table.get (slot + 1))
    Reader.refuse (.mismatch (.spriteOrder slot offset following) (some start))
  if length < headerSize then
    Reader.refuse (.mismatch (.spriteHeader slot) (some place))
  Reader.seek place
  let header ← Reader.fields headerLayout
  let payload ← Reader.bytes (length - headerSize)
  return ⟨header, payload, []⟩

def readLast (table : PointerTable) (start stop : Int) (slot : Nat) : Reader Sprite := do
  let (place, _) ← Reader.lift (table.resolve slot (stop - start))
  Reader.seek place
  let header ← Reader.fields headerLayout
  let body ← Reader.position
  let buffer ← Reader.buffer
  let (payload, terminator) ← Reader.lift (findEnd buffer body stop)
  Reader.expectTrailer (body + payload.length + terminator.length) stop table.padding
    "Sprite array trailer"
  Reader.note (.sprites start (slot + 1) terminator)
  return ⟨header, payload, terminator⟩

def readArray (start stop : Int) : Reader (List Sprite) := do
  let table ← PointerTable.read start .little PointerTable.defaultAlignment
  match table.offsets.length with
  | 0 => do
      EntryArray.expectEmpty table stop "Sprite array"
      return []
  | last + 1 => do
      let bounded ← Reader.forEach (readBounded table start stop) (List.range last)
      let final ← readLast table start stop last
      return bounded ++ [final]

def encode (sprite : Sprite) : Except Fault Bytes := do
  let header ← headerLayout.encode sprite.header
  return header ++ sprite.payload ++ sprite.terminator

/-- The last sprite of an array cannot do without a terminator. -/
def encodeLast (sprite : Sprite) : Except Fault Bytes := do
  let header ← headerLayout.encode sprite.header
  return header ++ sprite.payload
    ++ if sprite.terminator.isEmpty then defaultTerminator else sprite.terminator

def encodeEach : List Sprite → Except Fault (List Bytes)
  | [] => return []
  | [last] => do
      let encoded ← last.encodeLast
      return [encoded]
  | sprite :: rest => do
      let encoded ← sprite.encode
      let others ← encodeEach rest
      return encoded :: others

def encodeArray (sprites : List Sprite) : Except Fault Bytes := do
  let encoded ← encodeEach sprites
  EntryArray.join encoded []

end Sprite

end FighterData
