import FighterData.Deflate.Alphabet
import FighterData.Deflate.Bits

/-! Data as they are compressed: bytes of their own, and repeats of what stands a distance back. A
repeat has two symbols, each with the extra bits that tell its value from the least of its row. -/
namespace FighterData.Deflate

inductive Token where
  | literal (byte : UInt8)
  | repeated (length distance : Nat)
deriving DecidableEq, Repr

/-- The last row whose least value is not above the given one. -/
def rowOf (rows : List (Nat × Nat)) (value : Nat) : Nat :=
  rows.countP (·.1 ≤ value) - 1

def extraBits (rows : List (Nat × Nat)) (value : Nat) : Bits :=
  let (least, count) := rows.getD (rowOf rows value) (0, 0)
  numberBits count (value - least)

namespace Token

def literalSymbol : Token → Nat
  | literal byte => byte.toNat
  | repeated length _ => endSymbol + 1 + rowOf lengthRows length

def distanceSymbol? : Token → Option Nat
  | literal _ => none
  | repeated _ distance => some (rowOf distanceRows distance)

def extraCount (rows : List (Nat × Nat)) (value : Nat) : Nat :=
  (rows.getD (rowOf rows value) (0, 0)).2

/-- The extra bits of both symbols, which cost the same under any code. -/
def extraCost : Token → Nat
  | literal _ => 0
  | repeated length distance => extraCount lengthRows length + extraCount distanceRows distance

end Token

end FighterData.Deflate
