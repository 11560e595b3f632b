import FighterData.PointerTable

/-! Arrays of entries that tell their own length: a pointer table, the entries behind it, and a
trailer of FF as long as the padding of the table. Zeros may stand before and behind the trailer
and between entries; every other byte there is refused. Slots with equal offsets each get their own
copy of the entry, and only the first of them checks the gap behind it. -/
namespace FighterData.EntryArray

def expectEmpty (table : PointerTable) (stop : Int) (what : String) : Reader Unit :=
  Reader.expectTrailer (table.base + table.size) stop table.padding (what ++ " trailer")

def readSlot {α : Type} (table : PointerTable) (aliases : List Nat) (length : Int)
    (entry : Reader α) (what gap : String) (slot : Nat) : Reader α := do
  let span ← Reader.lift (table.resolveSpan slot length)
  Reader.seek span.position
  let value ← entry
  if aliases.contains slot then
    return value
  let stop ← Reader.position
  if span.isLast then
    Reader.expectTrailer stop (span.position + span.length) table.padding
      (what ++ " trailer")
  else
    Reader.expectFill stop (span.position + span.length) 0
      (gap ++ " " ++ Text.decimal slot ++ " alignment")
  return value

/-- Reads the array between two positions, and returns its entries and its alias slots. -/
def read {α : Type} (start stop : Int) (entry : Reader α) (what gap : String) :
    Reader (List α × List Int) := do
  let table ← PointerTable.read start .little PointerTable.defaultAlignment
  if table.offsets.isEmpty then
    expectEmpty table stop what
    return ([], [])
  let aliases := table.aliases
  let entries ← Reader.forEach (readSlot table aliases (stop - start) entry what gap)
    (List.range table.offsets.length)
  return (entries, aliases.map Int.ofNat)

/-- An array of encoded entries: the table, then the entries with their trailer. -/
def join (entries : List Bytes) (aliases : List Int) : Except Fault Bytes := do
  let (table, data) ← PointerTable.write entries PointerTable.defaultAlignment .little true aliases
  return table ++ data

end FighterData.EntryArray
