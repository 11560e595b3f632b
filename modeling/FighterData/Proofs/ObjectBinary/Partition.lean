import FighterData.Proofs.Entry.Partition
import FighterData.Proofs.ObjectBinary.RoundTrip

/-! A file that is read splits without a gap. Its table is followed by the regions that lie between
the starts, the regions by their sections, and those by their entries, so that every byte is a word
of a table or a header, part of a value, a reserved slot, or filling of the only kind that is allowed
at its place. -/
namespace FighterData

namespace Audio.Plan

structure Splits (plan : Plan) : Prop where
  tiled : Bytes.Tiled (Piece.bytes plan) (PointerTable.spell .big plan.offsets plan.padding)
    plan.offsets (Piece.value plan).blobs

theorem splits (plan : Plan) : plan.Splits where
  tiled := by
    have whole := Entry.tiled_pointersFrom
      (PointerTable.spell .big plan.offsets plan.padding) plan.blobs
    have table : (PointerTable.spell .big plan.offsets plan.padding).length = plan.tableSize := by
      rw [PointerTable.length_spell, offsets, Entry.length_pointersFrom, tableSize]
    rw [table] at whole
    exact whole

end Audio.Plan

namespace ObjectBinary

variable {data : Bytes} {binary : ObjectBinary}

namespace Plan

/-- The table and the regions. Every start is above the one before it, and the word that is read
again as the start of the audio section is the last of them. -/
structure Splits (plan : Plan) (data : Bytes) : Prop where
  tiled : Bytes.Tiled data (PointerTable.spell .little plan.starts plan.padding) plan.starts
    (Piece.bytes plan.player :: (plan.objects.map Piece.bytes ++ [Piece.bytes plan.audio]))
  opening : plan.starts.head? = some ((4 * plan.starts.length + plan.padding : Nat) : Int)
  increasing : plan.starts.Pairwise (· < ·)
  audioStart : ∃ (behind : Nat) (last : Int), plan.starts.getLast? = some last ∧
    last ≤ data.length ∧
    (PointerTable.read 0 .little PointerTable.defaultAlignment).Reads data.toArray 0
      ⟨0, plan.starts, plan.padding⟩ behind ∧
    (Reader.field .u32 .little).Reads data.toArray (behind - 8) last (behind - 4)
  player : plan.player.Splits
  objects : ∀ object ∈ plan.objects, object.Splits
  audio : plan.audio.Splits

theorem tiled_bytes (plan : Plan) : Bytes.Tiled plan.bytes
    (PointerTable.spell .little plan.starts plan.padding) plan.starts plan.regions := by
  have whole := Entry.tiled_pointersFrom
    (PointerTable.spell .little plan.starts plan.padding) plan.regions
  have table : (PointerTable.spell .little plan.starts plan.padding).length = plan.tableSize := by
    rw [PointerTable.length_spell, length_starts, tableSize]
  rw [table] at whole
  exact whole

theorem splits (plan : Plan) : plan.Splits plan.bytes where
  tiled := plan.tiled_bytes
  opening := by
    rw [plan.length_starts]
    rfl
  increasing := by
    refine Entry.increasing_pointersFrom ?_
    have inner : plan.regions = (Piece.bytes plan.player :: plan.objects.map Piece.bytes) ++
        [Piece.bytes plan.audio] := rfl
    rw [inner, List.dropLast_concat, List.forall_mem_cons]
    refine ⟨plan.player.length_pos, ?_⟩
    intro region member
    obtain ⟨object, _, rfl⟩ := List.mem_map.mp member
    exact object.length_pos
  audioStart := by
    obtain ⟨front, last, split⟩ : ∃ front last, plan.starts = front ++ [last] :=
      ⟨_, _, Entry.pointersFrom_append plan.tableSize
        (Piece.bytes plan.player :: plan.objects.map Piece.bytes) [Piece.bytes plan.audio]⟩
    have carried := Buffer.Carries.whole plan.bytes
    obtain ⟨_, spelled, _⟩ := Buffer.carries_append_iff.mp carried
    have count : plan.starts.length = front.length + 1 := by simp [split]
    refine ⟨_, last, by simp [split], ?_, PointerTable.reads_of_carries plan.tableFits spelled, ?_⟩
    · exact (plan.tiled_bytes.within last (by simp [split])).2
    · have word := reads_audioStart split spelled
      have back : 0 + 4 * plan.starts.length + 4 - 8 = 4 * front.length := by omega
      have next : 0 + 4 * plan.starts.length + 4 - 4 = 4 * front.length + 4 := by omega
      rw [back, next]
      exact word
  player := plan.player.splits
  objects object _ := object.splits
  audio := plan.audio.splits

end Plan

/-- Every file that is read splits into the parts of its value and their filling. -/
theorem decode_partition (read : decode data = .ok binary) :
    ∃ plan : Plan, plan.binary = binary ∧ plan.Splits data := by
  obtain ⟨plan, rfl, shown⟩ := decode_eq_ok_iff.mp read
  exact ⟨plan, shown, plan.splits⟩

theorem partition_loose : decode Plan.loose.bytes = .ok small ∧
    ∃ plan : Plan, plan.binary = small ∧ plan.Splits Plan.loose.bytes := by
  have read : decode Plan.loose.bytes = .ok small := decode_eq_ok_iff.mpr ⟨_, rfl, rfl⟩
  exact ⟨read, decode_partition read⟩

end ObjectBinary

end FighterData
