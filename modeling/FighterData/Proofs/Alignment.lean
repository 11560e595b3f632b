import Mathlib.Order.Bounds.Defs
import FighterData.Entry

/-! The paddings that encoding chooses are the least ones. A size is brought to the least multiple
of a step that is not below it; a table grows to the least multiple above it, so that its closing
word finds room; a script grows to the least size with the right remainder. -/
namespace FighterData.Alignment

theorem isLeast_of_least {bounds : Nat → Prop} {first second : Nat}
    (least : IsLeast {total | bounds total} first) :
    IsLeast {total | bounds total} second ↔ second = first := by
  constructor
  · intro other
    exact Nat.le_antisymm (other.2 least.1) (least.2 other.1)
  · intro same
    rw [same]
    exact least

theorem isLeast_gapNat (size : Nat) {step : Nat} (positive : 0 < step) :
    IsLeast {total | step ∣ total ∧ size ≤ total} (size + gapNat size step) := by
  refine ⟨⟨gapNat_add_dvd size positive, Nat.le_add_right _ _⟩, ?_⟩
  intro total found
  obtain ⟨⟨count, rfl⟩, enough⟩ := found
  have parts := Nat.div_add_mod size step
  have bound := Nat.mod_lt size positive
  unfold gapNat
  by_cases aligned : size % step = 0
  · simpa [aligned] using enough
  · -- the size lies strictly between two multiples, so the count passes the quotient
    have other : size ≠ step * count := by
      intro same
      rw [same] at aligned
      exact aligned (Nat.mul_mod_right step count)
    have above : size / step < count := Nat.div_lt_of_lt_mul (by omega)
    have product : step * (size / step + 1) ≤ step * count := Nat.mul_le_mul_left step above
    rw [Nat.mul_add, Nat.mul_one] at product
    rw [Nat.mod_eq_of_lt (by omega : step - size % step < step)]
    omega

theorem isLeast_gap_iff {size gap step : Nat} (positive : 0 < step) :
    IsLeast {total | step ∣ total ∧ size ≤ total} (size + gap) ↔ gap = gapNat size step := by
  rw [isLeast_of_least (isLeast_gapNat size positive)]
  omega

theorem isLeast_excess (size : Nat) {step : Nat} (positive : 0 < step) :
    IsLeast {total | step ∣ total ∧ size < total} (size + (step - size % step)) := by
  have parts := Nat.div_add_mod size step
  have bound := Nat.mod_lt size positive
  have sum : size + (step - size % step) = step * (size / step + 1) := by
    rw [Nat.mul_add]
    omega
  refine ⟨⟨?_, by omega⟩, ?_⟩
  · rw [sum]
    exact Nat.dvd_mul_right _ _
  · intro total found
    obtain ⟨⟨count, rfl⟩, enough⟩ := found
    have above : size / step < count := Nat.div_lt_of_lt_mul enough
    rw [sum]
    exact Nat.mul_le_mul_left step above

theorem isLeast_excess_iff {size padding step : Nat} (positive : 0 < step) :
    IsLeast {total | step ∣ total ∧ size < total} (size + padding) ↔
      padding = step - size % step := by
  rw [isLeast_of_least (isLeast_excess size positive)]
  omega

theorem length_pad (data : Bytes) (step : Nat) :
    (pad data step).length = data.length + gapNat data.length step := by
  simp [pad]

end FighterData.Alignment

namespace FighterData.Entry

theorem isLeast_scriptPadding (size : Nat) :
    IsLeast {total | size ≤ total ∧ total % 0x1000 = 0xA00}
      (size + (scriptPadding size).toNat) := by
  simp only [scriptPadding, scriptPage, scriptRemainder]
  constructor
  · show _ ∧ _
    omega
  · intro total found
    obtain ⟨enough, remainder⟩ := found
    omega

theorem isLeast_script_iff {size slack : Nat} :
    IsLeast {total | size ≤ total ∧ total % 0x1000 = 0xA00} (size + slack) ↔
      slack = (scriptPadding size).toNat := by
  rw [Alignment.isLeast_of_least (isLeast_scriptPadding size)]
  omega

end FighterData.Entry
