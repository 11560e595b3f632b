import FighterData.Proofs.EntryArray.Plan
import FighterData.Proofs.Sprite.Writing
import FighterData.Proofs.Tiling

/-! Arrays split into their table, their entries and a trailer. Slots may share an offset; the
distinct offsets are the places of the stored entries, in order, and nothing but zeros and the
filling of the table stands between and behind them. -/
namespace FighterData

namespace EntryArray

variable {π α : Type} [Piece π α]

/-- The distinct offsets are those of the stored entries. -/
theorem Run.dedup_offsetsFrom (positive : ∀ piece : π, 0 < (Piece.bytes piece).length)
    (running : Nat) (runs : List (Run π)) :
    (offsetsFrom running runs).dedup = Entry.pointersFrom running (runs.map bytes) := by
  induction runs generalizing running with
  | nil => rfl
  | cons run rest ih =>
      have size := positive run.piece
      have fresh : (running : Int) ∉ offsetsFrom (running + run.bytes.length) rest := by
        intro member
        have bounds := offset_le_of_mem member
        rw [length_bytes] at bounds
        omega
      have shared (copies : Nat) : (List.replicate (copies + 1) (running : Int) ++
          offsetsFrom (running + run.bytes.length) rest).dedup =
            (running : Int) :: (offsetsFrom (running + run.bytes.length) rest).dedup := by
        induction copies with
        | zero => exact List.dedup_cons_of_notMem fresh
        | succ copies again =>
            rw [List.replicate_succ, List.cons_append, List.dedup_cons_of_mem (by simp), again]
      rw [offsetsFrom, shared, ih]
      rfl

namespace Plan

/-- Where the trailer starts. -/
def finish (plan : Plan π) : Nat :=
  plan.tableSize + (plan.runs.flatMap Run.bytes).length

structure Splits (bytesOf : α → Bytes) (plan : Plan π) : Prop where
  tiled : Bytes.Tiled (Piece.bytes plan) (PointerTable.spell .little plan.offsets plan.padding)
    (plan.offsets.dedup ++ [(plan.finish : Int)])
    (plan.runs.map (fun run => bytesOf (Piece.value run.piece) ++ Bytes.filled 0 run.gap) ++
      [Bytes.filled 0 plan.before ++ Bytes.filled 0xFF plan.padding ++ Bytes.filled 0 plan.after])
  increasing : (plan.offsets.dedup ++ [(plan.finish : Int)]).Pairwise (· < ·)

theorem splits {bytesOf : α → Bytes} (plan : Plan π)
    (spelled : ∀ piece : π, bytesOf (Piece.value piece) = Piece.bytes piece)
    (positive : ∀ piece : π, 0 < (Piece.bytes piece).length) : plan.Splits bytesOf := by
  have table : (PointerTable.spell .little plan.offsets plan.padding).length = plan.tableSize := by
    rw [PointerTable.length_spell, length_offsets, tableSize]
  have places : plan.offsets.dedup = Entry.pointersFrom plan.tableSize (plan.runs.map Run.bytes) :=
    Run.dedup_offsetsFrom positive _ _
  have entries : plan.runs.map (fun run => bytesOf (Piece.value run.piece) ++
      Bytes.filled 0 run.gap) = plan.runs.map Run.bytes := by
    refine List.map_congr_left fun run _ => ?_
    rw [spelled, Run.bytes]
  have solid : ∀ block ∈ plan.runs.map Run.bytes, 0 < block.length := by
    intro block member
    obtain ⟨run, _, rfl⟩ := List.mem_map.mp member
    have size := positive run.piece
    rw [Run.length_bytes]
    omega
  constructor
  · rw [places, entries]
    exact Entry.tiled_concat table _ _
  · rw [places]
    exact Entry.increasing_concat solid

end Plan

end EntryArray

namespace Sprite

theorem Row.blocks_eq (row : Row) : row.blocks = row.sprites.map Sprite.bytes := by
  cases row with
  | empty => rfl
  | row bounded last =>
      simp [blocks, sprites, Piece.value, Piece.bytes, Sprite.bytes]

theorem Row.length_pos (row : Row) : ∀ block ∈ row.blocks, 0 < block.length := by
  intro block member
  rw [blocks_eq] at member
  obtain ⟨sprite, inside, rfl⟩ := List.mem_map.mp member
  have header := length_headerSpell (row.fits.headers sprite inside)
  rw [Sprite.bytes, List.append_assoc, List.length_append, header]
  simp only [headerSize]
  omega

namespace Plan

/-- Where the trailer starts. -/
def finish (plan : Plan) : Nat :=
  plan.tableSize + plan.row.blocks.flatten.length

structure Splits (plan : Plan) : Prop where
  tiled : Bytes.Tiled (Piece.bytes plan) (PointerTable.spell .little plan.offsets plan.padding)
    (plan.offsets ++ [(plan.finish : Int)]) (plan.row.sprites.map Sprite.bytes ++
      [Bytes.filled 0 plan.before ++ Bytes.filled 0xFF plan.padding ++ Bytes.filled 0 plan.after])
  increasing : (plan.offsets ++ [(plan.finish : Int)]).Pairwise (· < ·)

theorem splits (plan : Plan) : plan.Splits := by
  have table : (PointerTable.spell .little plan.offsets plan.padding).length = plan.tableSize := by
    rw [PointerTable.length_spell, offsets, Entry.length_pointersFrom, tableSize]
  constructor
  · rw [← Row.blocks_eq]
    exact Entry.tiled_concat table _ _
  · exact Entry.increasing_concat plan.row.length_pos

end Plan

end Sprite

end FighterData
