import FighterData.Fault

/-! Runs of one fill byte whose length comes out of a computation. A negative length stands for no
bytes, and one that no machine word or no memory holds is refused. -/
namespace FighterData.Fill

def byteOf (fill : Int) : Except Fault UInt8 :=
  if 0 ≤ fill ∧ fill < 256 then .ok (UInt8.ofNat fill.toNat) else .error .fillByte

/-- Lengths are signed words of eight bytes. -/
def wordLimit : Int := 0x8000000000000000

def memoryLimit : Int := 0x10000000000

def checkLength (length : Int) : Except Fault Unit :=
  if length < -wordLimit ∨ wordLimit ≤ length then .error .lengthRange
  else if memoryLimit ≤ length then .error .memory
  else .ok ()

def run (byte : UInt8) (length : Int) : Except Fault Bytes := do
  checkLength length
  return Bytes.filled byte length.toNat

theorem run_eq_ok {length : Int} (lower : -wordLimit ≤ length) (upper : length < memoryLimit)
    (byte : UInt8) : run byte length = .ok (Bytes.filled byte length.toNat) := by
  have word : memoryLimit ≤ wordLimit := by decide
  have checked : checkLength length = .ok () := by
    rw [checkLength, if_neg (by omega), if_neg (by omega)]
  simp [run, checked, bind, Except.bind, pure, Except.pure]

end FighterData.Fill
