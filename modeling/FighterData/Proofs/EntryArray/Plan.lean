import FighterData.EntryArray
import FighterData.Proofs.PointerTable.Spelling

/-! How an array of entries is laid out. Slots that share an entry form a run; behind the entry of
a run stand zeros, and behind the last one the trailer. A plan names the entries and the length of
every filling, and everything else follows from it: the offsets, the alias slots and the bytes. -/
namespace FighterData.EntryArray

/-- An entry, the number of further slots that share it, and the zeros behind it. -/
structure Run (π : Type) where
  piece : π
  copies : Nat
  gap : Nat

namespace Run

variable {π α : Type} [Piece π α]

def bytes (run : Run π) : Bytes :=
  Piece.bytes run.piece ++ Bytes.filled 0 run.gap

/-- Every slot of the run has the entry. -/
def values (run : Run π) : List α :=
  List.replicate (run.copies + 1) (Piece.value run.piece)

@[simp] theorem length_bytes (run : Run π) :
    run.bytes.length = (Piece.bytes run.piece).length + run.gap := by
  simp [bytes]

/-- The offsets of the slots when the first run starts at `running`. -/
def offsetsFrom (running : Nat) : List (Run π) → List Int
  | [] => []
  | run :: rest =>
      List.replicate (run.copies + 1) (running : Int)
        ++ offsetsFrom (running + run.bytes.length) rest

/-- The slots that share the entry of the slot before them when the first run has this slot. -/
def aliasesFrom (slot : Nat) : List (Run π) → List Nat
  | [] => []
  | run :: rest =>
      List.range' (slot + 1) run.copies ++ aliasesFrom (slot + run.copies + 1) rest

theorem length_offsetsFrom (running : Nat) (runs : List (Run π)) :
    (offsetsFrom running runs).length = (runs.flatMap values).length := by
  induction runs generalizing running with
  | nil => rfl
  | cons run rest ih =>
      rw [offsetsFrom, List.flatMap_cons, List.length_append, List.length_append, ih]
      simp [values]

theorem offsetsFrom_eq_nil_iff {running : Nat} {runs : List (Run π)} :
    offsetsFrom running runs = [] ↔ runs = [] := by
  cases runs with
  | nil => simp [offsetsFrom]
  | cons run rest => simp [offsetsFrom, List.replicate_succ]

theorem head?_offsetsFrom {running : Nat} {runs : List (Run π)} {offset : Int}
    (head : offset ∈ (offsetsFrom running runs).head?) : offset = running := by
  cases runs with
  | nil => simp [offsetsFrom] at head
  | cons run rest =>
      have same : (running : Int) = offset := by
        simpa [offsetsFrom, List.replicate_succ] using head
      exact same.symm

/-- The offsets lie between the first entry and the end of the last one. -/
theorem offset_le_of_mem {running : Nat} {runs : List (Run π)} {offset : Int}
    (member : offset ∈ offsetsFrom running runs) :
    (running : Int) ≤ offset ∧ offset ≤ running + (runs.flatMap bytes).length := by
  induction runs generalizing running with
  | nil => simp [offsetsFrom] at member
  | cons run rest ih =>
      rw [offsetsFrom] at member
      rw [List.flatMap_cons, List.length_append]
      cases List.mem_append.mp member with
      | inl first =>
          have same := List.eq_of_mem_replicate first
          omega
      | inr later =>
          have bounds := ih later
          omega

end Run

end FighterData.EntryArray

namespace FighterData.PointerTable

/-- The first slot with another offset than the slots of a run. -/
theorem find?_replicate_append (copies : Nat) (offset : Int) (rest : List Int) :
    (List.replicate copies offset ++ rest).find? (· ≠ offset) = rest.find? (· ≠ offset) := by
  rw [List.find?_append]
  simp

theorem aliasesFrom_replicate (slot copies : Nat) (offset : Int) (rest : List Int) :
    aliasesFrom slot (List.replicate (copies + 1) offset ++ rest) =
      List.range' slot copies ++ aliasesFrom (slot + copies) (offset :: rest) := by
  induction copies generalizing slot with
  | zero => rfl
  | succ copies ih =>
      have step : List.replicate (copies + 1 + 1) offset ++ rest =
          offset :: offset :: (List.replicate copies offset ++ rest) := by
        simp [List.replicate_succ]
      have tail : offset :: (List.replicate copies offset ++ rest) =
          List.replicate (copies + 1) offset ++ rest := by
        simp [List.replicate_succ]
      rw [step, aliasesFrom, if_pos rfl, tail, ih, List.range'_succ]
      have place : slot + 1 + copies = slot + (copies + 1) := by omega
      rw [place]
      rfl

theorem aliasesFrom_of_ne (slot : Nat) {offset other : Int} (rest : List Int)
    (different : offset ≠ other) :
    aliasesFrom slot (offset :: other :: rest) = aliasesFrom (slot + 1) (other :: rest) := by
  rw [aliasesFrom, if_neg different]

/-- A slot is an alias exactly if the slot before it has the same offset. -/
theorem mem_aliasesFrom {slot first : Nat} {offsets : List Int} :
    slot ∈ aliasesFrom first offsets ↔
      ∃ index offset, slot = first + index ∧ offsets[index]? = some offset ∧
        offsets[index + 1]? = some offset := by
  induction offsets generalizing first with
  | nil => simp [aliasesFrom]
  | cons a rest ih =>
      cases rest with
      | nil => simp [aliasesFrom]
      | cons b rest =>
          have deeper : slot ∈ aliasesFrom (first + 1) (b :: rest) ↔
              ∃ index offset, slot = first + (index + 1) ∧
                (a :: b :: rest)[index + 1]? = some offset ∧
                  (a :: b :: rest)[index + 1 + 1]? = some offset := by
            rw [ih]
            simp only [List.getElem?_cons_succ]
            constructor <;> intro found <;> obtain ⟨index, offset, place, both⟩ := found <;>
              exact ⟨index, offset, by omega, both⟩
          have split : slot ∈ aliasesFrom first (a :: b :: rest) ↔
              (slot = first ∧ a = b) ∨ slot ∈ aliasesFrom (first + 1) (b :: rest) := by
            by_cases same : a = b
            · rw [aliasesFrom, if_pos same, List.mem_cons]
              simp [same]
            · rw [aliasesFrom_of_ne first rest same]
              simp [same]
          rw [split, deeper]
          constructor
          · intro found
            cases found with
            | inl now => exact ⟨0, a, by omega, rfl, by simp [now.2]⟩
            | inr later =>
                obtain ⟨index, offset, both⟩ := later
                exact ⟨index + 1, offset, both⟩
          · intro found
            obtain ⟨index, offset, place, here, next⟩ := found
            cases index with
            | zero =>
                have head : a = offset := by simpa using here
                have second : b = offset := by simpa using next
                exact Or.inl ⟨place, head.trans second.symm⟩
            | succ index => exact Or.inr ⟨index, offset, place, here, next⟩

theorem mem_aliases_iff {table : PointerTable} {front rest : List Int} {offset : Int}
    (split : table.offsets = front ++ offset :: rest) :
    table.aliases.contains front.length = true ↔ front.getLast? = some offset := by
  rw [List.contains_iff_mem, aliases, mem_aliasesFrom, split]
  constructor
  · intro found
    obtain ⟨index, other, place, here, next⟩ := found
    have inside : index < front.length := by omega
    have second : offset = other := by
      have ending : index + 1 = front.length := by omega
      rw [ending, List.getElem?_append_right (Nat.le_refl _)] at next
      simpa using next
    rw [List.getElem?_append_left inside] at here
    rw [List.getLast?_eq_getElem?, second]
    have last : front.length - 1 = index := by omega
    rw [last]
    exact here
  · intro last
    rw [List.getLast?_eq_getElem?] at last
    have inside : front.length - 1 < front.length := by
      cases front with
      | nil => simp at last
      | cons head tail => simp
    refine ⟨front.length - 1, offset, by omega, ?_, ?_⟩
    · rw [List.getElem?_append_left inside]
      exact last
    · have ending : front.length - 1 + 1 = front.length := by omega
      rw [ending, List.getElem?_append_right (Nat.le_refl _)]
      simp

end FighterData.PointerTable

namespace FighterData.EntryArray

variable {π α : Type} [Piece π α]

theorem Run.aliasesFrom_offsetsFrom {running slot : Nat} {runs : List (Run π)}
    (positive : ∀ piece : π, 0 < (Piece.bytes piece).length) :
    PointerTable.aliasesFrom (slot + 1) (offsetsFrom running runs) = aliasesFrom slot runs := by
  induction runs generalizing running slot with
  | nil => rfl
  | cons run rest ih =>
      have size := positive run.piece
      have head (offset : Int)
          (first : offset ∈ (offsetsFrom (running + run.bytes.length) rest).head?) :
          offset ≠ running := by
        have place := head?_offsetsFrom first
        rw [length_bytes] at place
        omega
      rw [offsetsFrom, PointerTable.aliasesFrom_replicate, aliasesFrom]
      congr 1
      have again : PointerTable.aliasesFrom (slot + run.copies + 1 + 1)
          (offsetsFrom (running + run.bytes.length) rest) = aliasesFrom (slot + run.copies + 1) rest :=
        ih
      cases behind : offsetsFrom (running + run.bytes.length) rest with
      | nil =>
          rw [behind] at again
          exact again
      | cons next others =>
          have different : (running : Int) ≠ next := (head next (by rw [behind]; rfl)).symm
          rw [PointerTable.aliasesFrom_of_ne _ _ different, ← behind]
          have place : slot + 1 + run.copies + 1 = slot + run.copies + 1 + 1 := by omega
          rw [place]
          exact again

/-- The entries of an array and the length of every filling: of the table, before the trailer and
behind it. The trailer is as long as the filling of the table. -/
structure Plan (π : Type) [Piece π α] where
  runs : List (Run π)
  padding : Nat
  before : Nat
  after : Nat
  room : 4 ≤ padding
  empty : runs = [] → padding = 16
  bounded : ∀ offset ∈ Run.offsetsFrom (4 * (runs.flatMap Run.values).length + padding) runs,
    PointerTable.IsOffset offset

namespace Plan

def values (plan : Plan π) : List α :=
  plan.runs.flatMap Run.values

def aliases (plan : Plan π) : List Int :=
  (Run.aliasesFrom 0 plan.runs).map Int.ofNat

/-- Where the first entry starts. -/
def tableSize (plan : Plan π) : Nat :=
  4 * plan.values.length + plan.padding

def offsets (plan : Plan π) : List Int :=
  Run.offsetsFrom plan.tableSize plan.runs

def bytes (plan : Plan π) : Bytes :=
  PointerTable.spell .little plan.offsets plan.padding ++ plan.runs.flatMap Run.bytes
    ++ Bytes.trailer plan.padding plan.before plan.after

instance : Piece (Plan π) (List α × List Int) where
  value plan := (plan.values, plan.aliases)
  bytes := bytes

theorem length_offsets (plan : Plan π) : plan.offsets.length = plan.values.length :=
  Run.length_offsetsFrom _ _

theorem tableFits (plan : Plan π) : PointerTable.Fits plan.offsets plan.padding where
  bounded := plan.bounded
  room := plan.room
  first := by
    intro offset head
    rw [Run.head?_offsetsFrom head, length_offsets]
    simp [tableSize]
  empty := by
    intro none
    exact plan.empty (Run.offsetsFrom_eq_nil_iff.mp none)

end Plan

end FighterData.EntryArray
