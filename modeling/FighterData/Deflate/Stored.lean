import FighterData.Bytes

/-! Compression that stores: every block holds its bytes as they are, at most 65535 of them. -/
namespace FighterData.Deflate

def largestBlock : Nat := 0xFFFF

def storedHeader (final : Bool) (size : Nat) : Bytes :=
  (if final then 1 else 0) :: Bytes.ofNat 2 size ++ Bytes.ofNat 2 (0xFFFF - size)

/-- The given number of full blocks, and a final one with the rest. -/
def storedFrom : Nat → Bytes → Bytes
  | 0, data => storedHeader true data.length ++ data
  | full + 1, data =>
      storedHeader false largestBlock ++ data.take largestBlock
        ++ storedFrom full (data.drop largestBlock)

def stored (data : Bytes) : Bytes :=
  storedFrom ((data.length - 1) / largestBlock) data

end FighterData.Deflate
