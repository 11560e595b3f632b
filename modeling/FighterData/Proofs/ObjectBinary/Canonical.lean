import FighterData.Proofs.Entry.Canonical
import FighterData.Proofs.ObjectBinary.Reading
import FighterData.Proofs.ObjectBinary.Writing

/-! The least plan of a file. Everything that a file may choose freely is chosen least: the fillings
of its tables, the gaps, the paddings and the reserved slots. Encoding gives exactly these files. -/
namespace FighterData.ObjectBinary

namespace Plan

structure Canonical (plan : Plan) : Prop where
  table : IsLeast {total | 16 ∣ total ∧ 4 * plan.starts.length < total} plan.tableSize
  player : plan.player.Canonical
  objects : ∀ object ∈ plan.objects, object.Canonical
  audio : plan.audio.Canonical

variable {plan : Plan}

/-- Whatever is read can be encoded, as long as the new offsets fit. -/
theorem wellFormed (plan : Plan) : plan.binary.WellFormed where
  player := plan.player.fits_entry
  objects := by
    intro object member
    obtain ⟨held, _, rfl⟩ := List.mem_map.mp member
    exact held.fits_entry

theorem Canonical.padding_eq (canonical : plan.Canonical) :
    plan.padding = PointerTable.leastPadding plan.regions.length := by
  have least := canonical.table
  have count : plan.starts.length = plan.regions.length := Entry.length_pointersFrom _ _
  have size : plan.tableSize = 4 * plan.regions.length + plan.padding := by
    rw [tableSize, ← plan.length_starts, count]
  rw [size, count] at least
  exact PointerTable.isLeast_padding_iff.mp least

theorem Canonical.regions_eq (canonical : plan.Canonical) : plan.binary.regions = plan.regions := by
  have player : plan.binary.player.bytes = Piece.bytes plan.player := canonical.player.bytes_eq
  have objects : plan.binary.objects.map ObjectEntry.bytes = plan.objects.map Piece.bytes := by
    show (plan.objects.map Piece.value).map ObjectEntry.bytes = _
    rw [List.map_map]
    exact List.map_congr_left fun object member => (canonical.objects object member).bytes_eq
  have audio : plan.binary.audio.written = Piece.bytes plan.audio := canonical.audio.written_eq
  rw [ObjectBinary.regions, player, objects, audio]
  rfl

theorem Canonical.starts_eq (canonical : plan.Canonical) :
    (PointerTable.layOut plan.binary.regions []).1 = plan.starts := by
  rw [canonical.regions_eq, PointerTable.layOut_nil, starts, tableSize, ← plan.length_regions,
    canonical.padding_eq]
  rfl

/-- The least plan is what encoding writes. -/
theorem Canonical.bytes_eq (canonical : plan.Canonical) : plan.binary.bytes = plan.bytes := by
  rw [ObjectBinary.bytes, canonical.starts_eq, canonical.regions_eq, ← canonical.padding_eq]
  rfl

theorem Canonical.offsets_hold (canonical : plan.Canonical) :
    ∀ offset ∈ plan.binary.offsets, Width.u32.holds offset = true := by
  have objects : ∀ object ∈ plan.binary.objects, ∀ offset ∈ object.offsets,
      Width.u32.holds offset = true := by
    intro object member
    obtain ⟨held, inside, rfl⟩ := List.mem_map.mp member
    exact (canonical.objects held inside).offsets_hold
  have audio : (PointerTable.layOut plan.binary.audio.blobs []).1 = plan.audio.offsets :=
    canonical.audio.offsets_eq
  rw [ObjectBinary.offsets, canonical.starts_eq, audio]
  simp only [List.forall_mem_append, List.forall_mem_flatMap]
  exact ⟨⟨⟨canonical.player.offsets_hold, objects⟩,
    fun offset member => (plan.audio.tableFits.bounded offset member).holds⟩,
    fun offset member => (plan.tableFits.bounded offset member).holds⟩

theorem Canonical.encode_eq (canonical : plan.Canonical) : plan.binary.encode = .ok plan.bytes :=
  (encode_eq_ok_iff plan.wellFormed).mpr ⟨canonical.offsets_hold, canonical.bytes_eq.symm⟩

/-- A well-formed value has a least plan, as long as its bytes stay below the closing word. -/
theorem exists_canonical {binary : ObjectBinary} (fits : binary.WellFormed)
    (short : binary.bytes.length < PointerTable.sentinel) :
    ∃ plan : Plan, plan.Canonical ∧ plan.binary = binary := by
  rw [ObjectBinary.bytes, List.length_append, PointerTable.length_spell,
    PointerTable.layOut_nil, Entry.length_pointersFrom] at short
  have below {region : Bytes} (member : region ∈ binary.regions) :
      region.length < PointerTable.sentinel := by
    have bound := Entry.length_le_of_mem member
    omega
  have pieces : ∀ each : List ObjectEntry, (∀ object ∈ each, object ∈ binary.objects) →
      ∃ objects : List ObjectEntry.Plan, Piece.value objects = each ∧
        ∀ object ∈ objects, object.Canonical := by
    intro each inside
    induction each with
    | nil => exact ⟨[], rfl, by simp⟩
    | cons object rest ih =>
        have member := inside object (by simp)
        obtain ⟨objects, rfl, others⟩ := ih fun other deeper => inside other (by simp [deeper])
        obtain ⟨first, least, rfl⟩ := ObjectEntry.Plan.exists_canonical
          (fits.objects object member) (below (by
            simp only [ObjectBinary.regions, List.mem_cons, List.mem_append, List.mem_map]
            exact Or.inr (Or.inl ⟨object, member, rfl⟩)))
        exact ⟨first :: objects, rfl, List.forall_mem_cons.mpr ⟨least, others⟩⟩
  obtain ⟨player, playerLeast, playerShown⟩ := PlayerEntry.Plan.exists_canonical fits.player
    (below (by simp [ObjectBinary.regions]))
  obtain ⟨objects, objectsShown, objectsLeast⟩ := pieces binary.objects fun _ member => member
  have last : binary.audio.written ∈ binary.regions := by simp [ObjectBinary.regions]
  obtain ⟨audio, audioLeast, audioShown⟩ := Audio.Plan.exists_canonical (below last)
  have playerBytes : binary.player.bytes = Piece.bytes player := by
    rw [← playerShown]
    exact playerLeast.bytes_eq
  have objectsBytes : binary.objects.map ObjectEntry.bytes = objects.map Piece.bytes := by
    rw [← objectsShown]
    show (objects.map Piece.value).map ObjectEntry.bytes = _
    rw [List.map_map]
    exact List.map_congr_left fun object member => (objectsLeast object member).bytes_eq
  have audioBytes : binary.audio.written = Piece.bytes audio := by
    rw [← audioShown]
    exact audioLeast.written_eq
  have regionsEq : binary.regions =
      Piece.bytes player :: (objects.map Piece.bytes ++ [Piece.bytes audio]) := by
    rw [ObjectBinary.regions, playerBytes, objectsBytes, audioBytes]
  have count : binary.regions.length = objects.length + 2 := by simp [regionsEq]
  have room := PointerTable.leastPadding_bounds (objects.length + 2)
  rw [count, regionsEq] at short
  have bounded : ∀ start ∈ Entry.pointersFrom (4 * (objects.length + 2) +
      PointerTable.leastPadding (objects.length + 2))
        (Piece.bytes player :: (objects.map Piece.bytes ++ [Piece.bytes audio])),
          PointerTable.IsOffset start := by
    intro start member
    have bounds := Entry.pointer_le_of_mem member
    exact ⟨by omega, by omega⟩
  let plan : Plan := ⟨PointerTable.leastPadding (objects.length + 2), player, objects, audio, room.1,
    bounded⟩
  refine ⟨plan, ⟨?_, playerLeast, objectsLeast, audioLeast⟩, ?_⟩
  · rw [plan.length_starts]
    exact PointerTable.isLeast_padding_iff.mpr rfl
  · show ObjectBinary.mk _ _ _ = binary
    rw [playerShown, objectsShown, audioShown]

end Plan

end FighterData.ObjectBinary
