import FighterData.Fill

/-! Distances to the next multiple of a step. Remainders take the sign of the step, so the
distance is defined for every size and every step but zero. -/
namespace FighterData.Alignment

/-- The distance to the next multiple of `step`; nothing is missing from an aligned size. -/
def gap (size step : Int) : Except Fault Int :=
  if step = 0 then .error .zeroStep
  else
    let remainder := size.fmod step
    .ok (if remainder = 0 then 0 else step - remainder)

/-- Like `gap`, except that an aligned size lacks a whole step. -/
def excess (size step : Int) : Except Fault Int :=
  if step = 0 then .error .zeroStep else .ok (step - size.fmod step)

/-- The gap of a byte count for the positive steps of the file layout. -/
def gapNat (size step : Nat) : Nat :=
  (step - size % step) % step

theorem gap_eq_gapNat {size step : Nat} (positive : 0 < step) :
    gap size step = .ok (gapNat size step : Int) := by
  have bound := Nat.mod_lt size positive
  have residue : (size : Int).fmod step = (size % step : Nat) := by
    rw [Int.fmod_eq_emod_of_nonneg _ (by omega)]
    exact (Int.natCast_emod size step).symm
  have nonzero : ¬ (step : Int) = 0 := by omega
  simp only [gap, gapNat, if_neg nonzero, residue]
  by_cases aligned : size % step = 0
  · simp [aligned]
  · have short : (step - size % step) % step = step - size % step :=
      Nat.mod_eq_of_lt (by omega)
    have unaligned : ¬ ((size % step : Nat) : Int) = 0 := by omega
    rw [if_neg unaligned, short]
    congr 1
    omega

theorem gapNat_add_dvd (size : Nat) {step : Nat} (positive : 0 < step) :
    step ∣ size + gapNat size step := by
  have bound := Nat.mod_lt size positive
  unfold gapNat
  apply Nat.dvd_of_mod_eq_zero
  by_cases aligned : size % step = 0
  · simp [aligned]
  · rw [Nat.mod_eq_of_lt (by omega : step - size % step < step)]
    have parts := Nat.div_add_mod size step
    have sum : size + (step - size % step) = step * (size / step + 1) := by
      rw [Nat.mul_add]
      omega
    rw [sum]
    exact Nat.mul_mod_right _ _

def pad (data : Bytes) (step : Nat) : Bytes :=
  data ++ Bytes.filled 0 (gapNat data.length step)

theorem pad_length_dvd (data : Bytes) {step : Nat} (positive : 0 < step) :
    step ∣ (pad data step).length := by
  simpa [pad] using gapNat_add_dvd data.length positive

/-- Padding with any fill to any step. A fill that is no byte is refused before a step of zero,
and a negative distance adds nothing. -/
def padTo (data : Bytes) (step fill : Int) : Except Fault Bytes := do
  let byte ← Fill.byteOf fill
  let missing ← gap data.length step
  let padding ← Fill.run byte missing
  return data ++ padding

def isFilled (data : Bytes) (fill : Int) : Except Fault Bool := do
  let byte ← Fill.byteOf fill
  return Bytes.isFilled byte data

end FighterData.Alignment
