import FighterData.Bytes

/-! Bits as a compressed stream orders them: those of each byte from the lowest up, and those of a
number too. -/
namespace FighterData.Deflate

abbrev Bits := List Bool

/-- The lowest bits of a number, as many as `count`. -/
def numberBits (count value : Nat) : Bits :=
  (List.range count).map value.testBit

@[simp] theorem length_numberBits (count value : Nat) : (numberBits count value).length = count := by
  simp [numberBits]

theorem numberBits_succ (count value : Nat) :
    numberBits (count + 1) value = value.testBit 0 :: numberBits count (value / 2) := by
  simp [numberBits, List.range_succ_eq_map, Function.comp_def, Nat.testBit_succ]

def byteBits (byte : UInt8) : Bits :=
  numberBits 8 byte.toNat

def bitsOf (data : Bytes) : Bits :=
  data.flatMap byteBits

end FighterData.Deflate
