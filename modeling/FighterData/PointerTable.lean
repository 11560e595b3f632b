import FighterData.Alignment
import FighterData.Reader

/-! Tables of 32-bit offsets, closed by the word FFFFFFFF and filled with FF up to the first entry.
An aligned table is still followed by a whole block of fill, since that block carries the closing
word. A slot that repeats the offset before it is an alias: both slots share one entry. -/
namespace FighterData

/-- Offsets are relative to `base`; `padding` counts the bytes behind them, closing word included. -/
structure PointerTable where
  base : Int
  offsets : List Int
  padding : Int
deriving DecidableEq, Repr

/-- The bytes that one slot stands for. -/
structure Span where
  position : Int
  length : Int
  isLast : Bool
deriving DecidableEq, Repr

namespace PointerTable

def sentinel : Int := 0xFFFFFFFF

def defaultAlignment : Int := 16

/-- Where a slot starts and how far the next slot, or the end of the section, is away. -/
def resolveIn (offsets : List Int) (index : Nat) (stop : Int) : Except Fault (Int × Int) :=
  match offsets[index]? with
  | none => .error .noSuchSlot
  | some offset =>
      let following := offsets.getD (index + 1) stop
      if following < offset then .error (.mismatch (.slotOrder index offset following) none)
      else .ok (offset, following - offset)

def size (table : PointerTable) : Int :=
  4 * table.offsets.length + table.padding

def get (table : PointerTable) (index : Nat) : Except Fault Int :=
  match table.offsets[index]? with
  | none => .error .noSuchSlot
  | some offset => .ok offset

def resolve (table : PointerTable) (index : Nat) (stop : Int) : Except Fault (Int × Int) := do
  let (offset, length) ← resolveIn table.offsets index stop
  return (table.base + offset, length)

def aliasesFrom (slot : Nat) : List Int → List Nat
  | a :: b :: rest => if a = b then slot :: aliasesFrom (slot + 1) (b :: rest)
      else aliasesFrom (slot + 1) (b :: rest)
  | _ => []

/-- The slots that repeat the offset of the slot before them, in order. -/
def aliases (table : PointerTable) : List Nat :=
  aliasesFrom 1 table.offsets

/-- Like `resolve`, except that a span reaches to the next different offset, so the slots of a run
of equal offsets see the same bytes. The last span is the one that reaches to `stop`. -/
def resolveSpan (table : PointerTable) (index : Nat) (stop : Int) : Except Fault Span :=
  match table.offsets[index]? with
  | none => .error .noSuchSlot
  | some offset =>
      let other := (table.offsets.drop (index + 1)).find? (· ≠ offset)
      let following := other.getD stop
      if following < offset then .error (.mismatch (.slotOrder index offset following) none)
      else .ok ⟨table.base + offset, following - offset, other.isNone⟩

/-- The padding that the first offset leaves behind `count` offsets, or a whole block when there
is no offset to tell. -/
def paddingOf (base : Int) (offsets : List Int) (alignment : Int) : Except Fault Int :=
  match offsets with
  | [] => Alignment.excess 0 alignment
  | first :: _ =>
      let padding := first - 4 * offsets.length
      if padding < 4 then .error (.mismatch (.tableOverlap first) (some base)) else .ok padding

/-- Reads a table at `base` and stops behind its closing word. -/
def read (base : Int) (order : ByteOrder) (alignment : Int) : Reader PointerTable := do
  Reader.seek base
  let words ← Reader.upToLast (Reader.field .u32 order) (· == sentinel)
  let offsets := words.dropLast
  let stop ← Reader.position
  let padding ← Reader.lift (paddingOf base offsets alignment)
  Reader.expectFill stop (base + 4 * offsets.length + padding) 0xFF "Pointer table padding"
  Reader.seek stop
  Reader.note (.table base offsets.length padding)
  return ⟨base, offsets, padding⟩

def checkAlias (entries : List Bytes) (slot : Int) : Except Fault Unit :=
  if 0 < slot ∧ slot < entries.length then
    if entries[slot.toNat]? = entries[slot.toNat - 1]? then .ok () else .error (.aliasDiffers slot)
  else .error (.aliasFirst slot)

/-- Aliases are checked from the lowest slot up, each for a slot before it with the same bytes. -/
def checkAliases (entries : List Bytes) (aliases : List Int) : Except Fault Unit :=
  (aliases.mergeSort (· ≤ ·)).forM (checkAlias entries)

/-- The offset of every entry when the next free one is `running` and the slot before got
`previous`, and the entries that are stored. -/
def place (aliases : List Int) (slot : Nat) (previous running : Int) :
    List Bytes → List Int × List Bytes
  | [] => ([], [])
  | entry :: rest =>
      if aliases.contains (slot : Int) then
        let (offsets, stored) := place aliases (slot + 1) previous running rest
        (previous :: offsets, stored)
      else
        let (offsets, stored) := place aliases (slot + 1) running (running + entry.length) rest
        (running :: offsets, entry :: stored)

/-- Lays entries out behind a new table, and returns the table and what follows it. A trailer of
FF as long as the padding closes the entries when asked for. -/
def write (entries : List Bytes) (alignment : Int) (order : ByteOrder) (trailer : Bool)
    (aliases : List Int) : Except Fault (Bytes × Bytes) := do
  checkAliases entries aliases
  let padding ← Alignment.excess (4 * entries.length) alignment
  let start := 4 * entries.length + padding
  let (offsets, stored) := place aliases 0 start start entries
  let words ← offsets.mapM (encodeField order .u32)
  let fill ← Fill.run 0xFF padding
  return (words.flatten ++ fill, stored.flatten ++ if trailer then fill else [])

end PointerTable

end FighterData
