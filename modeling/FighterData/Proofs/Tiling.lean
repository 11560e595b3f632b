import FighterData.Proofs.PointerTable.Blocks
import Mathlib.Data.List.Dedup

/-! Data that are cut at offsets. Blocks that follow each other without a gap are exactly what lies
between their offsets, and the offsets tell where each of them ends. -/
namespace FighterData

namespace Bytes

/-- What lies between each offset and the next one, and behind the last one. -/
def cut (data : Bytes) : List Int → List Bytes
  | [] => []
  | [start] => [data.drop start.toNat]
  | start :: stop :: rest => slice data start.toNat stop.toNat :: cut data (stop :: rest)

/-- The data are `front` and then the blocks. Each block starts at its offset and ends where the next
one starts, the last one at the end of the data. -/
structure Tiled (data front : Bytes) (offsets : List Int) (blocks : List Bytes) : Prop where
  whole : data = front ++ blocks.flatten
  opening : ∀ offset ∈ offsets.head?, offset = front.length
  slices : cut data offsets = blocks
  ends : ∀ (index : Nat) (offset : Int) (block : Bytes), offsets[index]? = some offset →
    blocks[index]? = some block →
      (offsets ++ [(data.length : Int)])[index + 1]? = some (offset + block.length)
  within : ∀ offset ∈ offsets, front.length ≤ offset ∧ offset ≤ data.length

end Bytes

namespace Entry

theorem cut_pointersFrom (front : Bytes) (blocks : List Bytes) :
    Bytes.cut (front ++ blocks.flatten) (pointersFrom front.length blocks) = blocks := by
  induction blocks generalizing front with
  | nil => rfl
  | cons block rest ih =>
      have behind := ih (front ++ block)
      rw [List.length_append, List.append_assoc] at behind
      cases rest with
      | nil => simp [pointersFrom, Bytes.cut]
      | cons other others =>
          have first : Bytes.slice (front ++ (block ++ (other :: others).flatten)) front.length
              (front.length + block.length) = block := by
            simp [Bytes.slice]
          rw [List.flatten_cons, pointersFrom, pointersFrom, Bytes.cut, ← pointersFrom, behind]
          exact congrArg (· :: other :: others) first

theorem pointersFrom_concat (running : Nat) (blocks : List Bytes) (last : Bytes) :
    pointersFrom running (blocks ++ [last]) =
      pointersFrom running blocks ++ [((running + blocks.flatten.length : Nat) : Int)] :=
  pointersFrom_append running blocks [last]

theorem end_pointersFrom {running index : Nat} {blocks : List Bytes} {offset : Int} {block : Bytes}
    (place : (pointersFrom running blocks)[index]? = some offset)
    (stored : blocks[index]? = some block) :
    (pointersFrom running blocks ++
      [((running + blocks.flatten.length : Nat) : Int)])[index + 1]? =
        some (offset + block.length) := by
  rw [← pointersFrom_concat running blocks []]
  induction blocks generalizing running index with
  | nil => cases stored
  | cons first rest ih =>
      cases index with
      | succ index => exact ih place stored
      | zero =>
          obtain rfl := Option.some.inj place
          obtain rfl := Option.some.inj stored
          cases rest <;> rfl

theorem tiled_pointersFrom (front : Bytes) (blocks : List Bytes) :
    Bytes.Tiled (front ++ blocks.flatten) front (pointersFrom front.length blocks) blocks where
  whole := rfl
  opening _ head := head?_pointersFrom head
  slices := cut_pointersFrom front blocks
  ends := by
    intro index offset block place stored
    rw [List.length_append]
    exact end_pointersFrom place stored
  within := by
    intro offset member
    have bounds := pointer_le_of_mem member
    rw [List.length_append]
    omega

/-- Offsets increase across blocks that are not empty; nothing is behind the last one. -/
theorem increasing_pointersFrom {running : Nat} {blocks : List Bytes}
    (solid : ∀ block ∈ blocks.dropLast, 0 < block.length) :
    (pointersFrom running blocks).Pairwise (· < ·) := by
  induction blocks generalizing running with
  | nil => exact List.Pairwise.nil
  | cons block rest ih =>
      cases rest with
      | nil => exact List.pairwise_singleton _ _
      | cons other others =>
          rw [List.dropLast_cons_cons, List.forall_mem_cons] at solid
          rw [pointersFrom, List.pairwise_cons]
          refine ⟨?_, ih solid.2⟩
          intro offset member
          have bounds := pointer_le_of_mem member
          have size := solid.1
          omega

/-- Blocks with a trailer behind them. -/
theorem tiled_concat {front : Bytes} {running : Nat} (length : front.length = running)
    (blocks : List Bytes) (trailer : Bytes) :
    Bytes.Tiled (front ++ blocks.flatten ++ trailer) front
      (pointersFrom running blocks ++ [((running + blocks.flatten.length : Nat) : Int)])
      (blocks ++ [trailer]) := by
  have whole := tiled_pointersFrom front (blocks ++ [trailer])
  rw [length, pointersFrom_concat, List.flatten_concat, ← List.append_assoc] at whole
  exact whole

theorem increasing_concat {running : Nat} {blocks : List Bytes}
    (solid : ∀ block ∈ blocks, 0 < block.length) :
    (pointersFrom running blocks ++
      [((running + blocks.flatten.length : Nat) : Int)]).Pairwise (· < ·) := by
  rw [← pointersFrom_concat running blocks []]
  refine increasing_pointersFrom ?_
  rw [List.dropLast_concat]
  exact solid

end Entry

end FighterData
