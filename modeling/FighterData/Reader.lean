import FighterData.Trace
import FighterData.Word

/-! Reading a buffer through a position. A read consumes bytes or is refused, and a refusal leaves
the position where the read stood; the position after a refusal is part of the outcome, because
later reads may go on from there. Notes are collected beside the result and never influence it. -/
namespace FighterData

@[ext] structure Outcome (α : Type) where
  result : Except Fault α
  position : Nat
  notes : List Note

def Reader (α : Type) : Type :=
  Buffer → Nat → Outcome α

namespace Reader

def run {α : Type} (reader : Reader α) (buffer : Buffer) (position : Nat) : Outcome α :=
  reader buffer position

def value {α : Type} (a : α) : Reader α :=
  fun _ position => ⟨.ok a, position, []⟩

/-- The second reader goes on where the first one stopped; a refusal of the first is final. -/
def andThen {α β : Type} (first : Reader α) (next : α → Reader β) : Reader β :=
  fun buffer position =>
    match first buffer position with
    | ⟨.ok a, middle, notes⟩ =>
        let rest := next a buffer middle
        { rest with notes := notes ++ rest.notes }
    | ⟨.error fault, middle, notes⟩ => ⟨.error fault, middle, notes⟩

instance : Monad Reader where
  pure := value
  bind := andThen

def refuse {α : Type} (fault : Fault) : Reader α :=
  fun _ position => ⟨.error fault, position, []⟩

def lift {α : Type} (result : Except Fault α) : Reader α :=
  fun _ position => ⟨result, position, []⟩

def note (entry : Note) : Reader Unit :=
  fun _ position => ⟨.ok (), position, [entry]⟩

def position : Reader Nat :=
  fun _ position => ⟨.ok position, position, []⟩

def buffer : Reader Buffer :=
  fun buffer position => ⟨.ok buffer, position, []⟩

def size : Reader Nat :=
  fun buffer position => ⟨.ok buffer.size, position, []⟩

/-- Any position of the buffer can be taken, the one behind its last byte included. -/
def seek (target : Int) : Reader Unit :=
  fun buffer position =>
    if target < 0 ∨ buffer.size < target then
      ⟨.error (.mismatch (.offsetOutside target buffer.size) none), position, []⟩
    else ⟨.ok (), target.toNat, []⟩

/-- Consumes exactly `count` bytes. -/
def bytes (count : Int) : Reader Bytes :=
  fun buffer position =>
    if count < 0 ∨ (buffer.size : Int) < position + count then
      ⟨.error (.mismatch (.shortRead count (buffer.size - position)) (some position)), position, []⟩
    else
      let stop := position + count.toNat
      ⟨.ok (buffer.extract position stop).toList, stop, []⟩

def field (width : Width) (order : ByteOrder) : Reader Int := do
  let raw ← bytes width.size
  return width.decode (order.arrange raw)

def byte : Reader UInt8 := do
  let raw ← bytes 1
  return raw.headD 0

def fields (layout : Layout) : Reader (List Int) := do
  let raw ← bytes layout.size
  return layout.decode raw

def peek : Reader UInt8 :=
  fun buffer position =>
    match buffer[position]? with
    | some next => ⟨.ok next, position, []⟩
    | none => ⟨.error (.mismatch .endOfData (some position)), position, []⟩

/-- Consumes as many bytes as `magic` has, and accepts no others. -/
def expect (magic : Bytes) (what : String) : Reader Unit := do
  let start ← position
  let found ← bytes magic.length
  if found ≠ magic then
    refuse (.mismatch (.wrongMagic what magic found) (some start))

/-- The bytes between two positions, cut at the end of the buffer. -/
def region (start stop : Int) : Reader Bytes :=
  fun buffer position => ⟨.ok (buffer.extract start.toNat stop.toNat).toList, position, []⟩

/-- Checks, without moving, the bytes between two positions that must not cross. -/
def expectGap (start stop : Int) (accepts : Bytes → Bool) (what : String) : Reader Unit := do
  if stop < start then
    refuse (.mismatch (.overrun what) (some stop))
  let gap ← region start stop
  if !accepts gap then
    refuse (.leftover what start stop)

/-- Nothing but the fill byte may stand in the gap. -/
def expectFill (start stop : Int) (fill : UInt8) (what : String) : Reader Unit :=
  expectGap start stop (Bytes.isFilled fill) what

/-- Nothing but zeros may stand before and behind the first run of `count` bytes FF. -/
def isTrailer (count : Nat) (gap : Bytes) : Bool :=
  match Bytes.firstRun? 0xFF count gap with
  | none => false
  | some place => Bytes.isFilled 0 (gap.take place) && Bytes.isFilled 0 (gap.drop (place + count))

/-- A count below zero asks for zeros only, and only at that distance from the end. -/
def closesGap (count : Int) (gap : Bytes) : Bool :=
  if 0 ≤ count then isTrailer count.toNat gap
  else Bytes.isFilled 0 (Bytes.lastBytes gap count.natAbs)

/-- The gap behind the last entry of an array must be a trailer. -/
def expectTrailer (start stop : Int) (count : Int) (what : String) : Reader Unit :=
  expectGap start stop (closesGap count) what

/-- A fixed number of items. -/
def times {α : Type} (item : Reader α) : Nat → Reader (List α)
  | 0 => return []
  | count + 1 => do
      let first ← item
      let rest ← times item count
      return first :: rest

/-- One read for every member of a list, in order. -/
def forEach {α β : Type} (item : α → Reader β) : List α → Reader (List β)
  | [] => return []
  | a :: as => do
      let first ← item a
      let rest ← forEach item as
      return first :: rest

def upToLastWithin {α : Type} (item : Reader α) (isLast : α → Bool) : Nat → Reader (List α)
  | 0 => do
      let last ← item
      return [last]
  | budget + 1 => do
      let next ← item
      if isLast next then return [next]
      let rest ← upToLastWithin item isLast budget
      return next :: rest

/-- Items up to and with the first one that is marked as the last. An item takes at least a byte,
so the bytes left bound their number. -/
def upToLast {α : Type} (item : Reader α) (isLast : α → Bool) : Reader (List α) :=
  fun buffer position =>
    upToLastWithin item isLast (buffer.size - position) buffer position

end Reader

end FighterData
