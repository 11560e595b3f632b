import FighterData.Proofs.Audio.Plan
import FighterData.Proofs.EntryArray.Writing

/-! Encoding the audio section. Any blobs can be encoded, and the table is filled up to the least
multiple of 16. -/
namespace FighterData.Audio

def written (audio : Audio) : Bytes :=
  PointerTable.spell .big (PointerTable.layOut audio.blobs []).1
    (PointerTable.leastPadding audio.blobs.length) ++ audio.blobs.flatten

theorem encode_eq_ok_iff {audio : Audio} {data : Bytes} :
    audio.encode = .ok data ↔
      (∀ offset ∈ (PointerTable.layOut audio.blobs []).1, Width.u32.holds offset = true) ∧
        data = audio.written := by
  simp only [encode, bind_eq_ok_iff, PointerTable.write_nil_eq_ok_iff, exists_made_iff,
    Bool.false_eq_true, if_false, List.append_nil, pure, Except.pure, Except.ok.injEq]
  rw [@eq_comm _ data, written]

namespace Plan

structure Canonical (plan : Plan) : Prop where
  table : IsLeast {total | 16 ∣ total ∧ 4 * plan.blobs.length < total} plan.tableSize

variable {plan : Plan}

theorem Canonical.padding_eq (canonical : plan.Canonical) :
    plan.padding = PointerTable.leastPadding plan.blobs.length :=
  PointerTable.isLeast_padding_iff.mp canonical.table

theorem Canonical.offsets_eq (canonical : plan.Canonical) :
    (PointerTable.layOut plan.blobs []).1 = plan.offsets := by
  rw [PointerTable.layOut_nil, offsets, tableSize, canonical.padding_eq]
  rfl

/-- The least plan is what encoding writes. -/
theorem Canonical.written_eq (canonical : plan.Canonical) :
    (Piece.value plan).written = Piece.bytes plan := by
  have value : Piece.value plan = ⟨plan.blobs⟩ := rfl
  have bytes : Piece.bytes plan = plan.bytes := rfl
  rw [value, bytes, written, canonical.offsets_eq, Plan.bytes, canonical.padding_eq]

/-- Blobs have a least plan, as long as the section stays below the closing word. -/
theorem exists_canonical {audio : Audio}
    (short : audio.written.length < PointerTable.sentinel) :
    ∃ plan : Plan, plan.Canonical ∧ Piece.value plan = audio := by
  have room := PointerTable.leastPadding_bounds audio.blobs.length
  rw [written, PointerTable.layOut_nil] at short
  simp only [List.length_append, PointerTable.length_spell, Entry.length_pointersFrom] at short
  have bounded : ∀ offset ∈ Entry.pointersFrom (4 * audio.blobs.length +
      PointerTable.leastPadding audio.blobs.length) audio.blobs, PointerTable.IsOffset offset := by
    intro offset member
    have bounds := Entry.pointer_le_of_mem member
    exact ⟨by omega, by omega⟩
  let plan : Plan := {
    blobs := audio.blobs
    padding := PointerTable.leastPadding audio.blobs.length
    room := room.1
    empty := by
      intro none
      rw [none]
      rfl
    bounded := bounded }
  exact ⟨plan, ⟨PointerTable.isLeast_padding_iff.mpr rfl⟩, rfl⟩

end Plan

end FighterData.Audio
