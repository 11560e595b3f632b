import FighterData.Proofs.Reading
import FighterData.Proofs.Record

/-! Pieces of a file. A piece knows its bytes and the value that they spell, and it may know more
than the value: what stands in a reserved slot, how far a gap reaches. A reader reads pieces when
its successes are exactly the places where the buffer carries one. -/
namespace FighterData

class Piece (π : Type) (α : outParam Type) where
  value : π → α
  bytes : π → Bytes

/-- Pieces one after the other spell the list of their values. -/
instance {π α : Type} [Piece π α] : Piece (List π) (List α) where
  value pieces := pieces.map Piece.value
  bytes pieces := pieces.flatMap Piece.bytes

namespace Piece

variable {π α : Type} [Piece π α]

@[simp] theorem value_cons (piece : π) (rest : List π) :
    value (piece :: rest) = value piece :: value rest := rfl

@[simp] theorem value_append (front back : List π) :
    value (front ++ back) = value front ++ value back :=
  List.map_append

@[simp] theorem bytes_nil : bytes ([] : List π) = [] := rfl

@[simp] theorem bytes_cons (piece : π) (rest : List π) :
    bytes (piece :: rest) = bytes piece ++ bytes rest :=
  List.flatMap_cons

end Piece

/-- Only the last item is marked, and there is one. -/
def onlyLast {α : Type} (isLast : α → Bool) : List α → Bool
  | [] => false
  | a :: rest => if isLast a then rest.isEmpty else onlyLast isLast rest

theorem onlyLast_iff {α : Type} {isLast : α → Bool} {items : List α} :
    onlyLast isLast items = true ↔
      ∃ front last, items = front ++ [last] ∧ isLast last = true ∧
        ∀ item ∈ front, isLast item = false := by
  induction items with
  | nil => simp [onlyLast]
  | cons a rest ih =>
      by_cases marked : isLast a = true
      · simp only [onlyLast, marked, if_true, List.isEmpty_iff]
        constructor
        · intro none
          exact ⟨[], a, by simp [none], marked, by simp⟩
        · intro found
          obtain ⟨front, last, same, _, unmarked⟩ := found
          cases front with
          | nil => exact (List.cons.inj same).2
          | cons first front =>
              have head : a = first := (List.cons.inj same).1
              have plain := unmarked first (by simp)
              rw [← head, marked] at plain
              cases plain
      · have plain : isLast a = false := by simpa using marked
        simp only [onlyLast, plain, Bool.false_eq_true, if_false]
        rw [ih]
        constructor
        · intro found
          obtain ⟨front, last, rfl, ended, unmarked⟩ := found
          refine ⟨a :: front, last, rfl, ended, ?_⟩
          simpa [plain] using unmarked
        · intro found
          obtain ⟨front, last, same, ended, unmarked⟩ := found
          cases front with
          | nil =>
              have head : a = last := (List.cons.inj same).1
              rw [head, ended] at plain
              cases plain
          | cons first front =>
              refine ⟨front, last, (List.cons.inj same).2, ended, ?_⟩
              intro item member
              exact unmarked item (by simp [member])

namespace Reader

variable {α π : Type} [Piece π α]

/-- The reader succeeds exactly where the buffer carries a piece, and returns its value. -/
def ReadsPieces (reader : Reader α) (π : Type) [Piece π α] : Prop :=
  ∀ {buffer : Buffer} {start stop : Nat} {a : α}, reader.Reads buffer start a stop ↔
    ∃ piece : π, Piece.value piece = a ∧ buffer.Carries start stop (Piece.bytes piece)

variable {reader : Reader α} {buffer : Buffer} {start stop : Nat}

theorem ReadsPieces.reads (pieces : reader.ReadsPieces π) {piece : π}
    (carried : buffer.Carries start stop (Piece.bytes piece)) :
    reader.Reads buffer start (Piece.value piece) stop :=
  pieces.mpr ⟨piece, rfl, carried⟩

theorem ReadsPieces.times (pieces : reader.ReadsPieces π) {count : Nat} {items : List α}
    (inside : start ≤ buffer.size) :
    (times reader count).Reads buffer start items stop ↔
      ∃ each : List π, each.length = count ∧ Piece.value each = items ∧
        buffer.Carries start stop (Piece.bytes each) := by
  induction count generalizing start items with
  | zero =>
      rw [reads_times_zero_iff]
      constructor
      · intro read
        obtain ⟨rfl, rfl⟩ := read
        exact ⟨[], rfl, rfl, Buffer.carries_nil inside⟩
      · intro found
        obtain ⟨each, none, rfl, carried⟩ := found
        obtain rfl := List.eq_nil_of_length_eq_zero none
        exact ⟨rfl, carried.eq_start_of_nil⟩
  | succ count ih =>
      rw [reads_times_succ_iff]
      constructor
      · intro read
        obtain ⟨a, others, middle, rfl, first, behind⟩ := read
        obtain ⟨piece, rfl, carried⟩ := pieces.mp first
        obtain ⟨each, rfl, rfl, more⟩ := (ih carried.stop_le).mp behind
        exact ⟨piece :: each, rfl, rfl, by simpa using carried.append more⟩
      · intro found
        obtain ⟨each, counted, rfl, carried⟩ := found
        cases each with
        | nil => cases counted
        | cons piece each =>
            rw [Piece.bytes_cons] at carried
            obtain ⟨middle, first, more⟩ := Buffer.carries_append_iff.mp carried
            have length : each.length = count := by simpa using counted
            exact ⟨_, _, middle, rfl, pieces.reads first,
              (ih first.stop_le).mpr ⟨each, length, rfl, more⟩⟩

theorem ReadsPieces.upToLast (pieces : reader.ReadsPieces π) (advances : reader.Advances)
    {isLast : α → Bool} {items : List α} :
    (upToLast reader isLast).Reads buffer start items stop ↔
      ∃ each : List π, Piece.value each = items ∧ onlyLast isLast items = true ∧
        buffer.Carries start stop (Piece.bytes each) := by
  induction items generalizing start with
  | nil =>
      rw [reads_upToLast_iff advances]
      constructor
      · intro read
        obtain ⟨a, middle, _, behind⟩ := read
        split at behind <;> simp at behind
      · intro found
        obtain ⟨_, _, impossible, _⟩ := found
        simp [onlyLast] at impossible
  | cons a rest ih =>
      rw [reads_upToLast_iff advances]
      constructor
      · intro read
        obtain ⟨b, middle, first, behind⟩ := read
        obtain ⟨piece, rfl, carried⟩ := pieces.mp first
        split at behind
        next last =>
          obtain ⟨same, rfl⟩ := behind
          obtain ⟨rfl, rfl⟩ := List.cons.inj same
          exact ⟨[piece], rfl, by simp [onlyLast, last], by simpa using carried⟩
        next more =>
          obtain ⟨others, same, behind⟩ := behind
          obtain ⟨rfl, rfl⟩ := List.cons.inj same
          obtain ⟨each, shown, only, further⟩ := ih.mp behind
          refine ⟨piece :: each, by simp [shown], ?_, by simpa using carried.append further⟩
          simpa [onlyLast, more] using only
      · intro found
        obtain ⟨each, shown, only, carried⟩ := found
        cases each with
        | nil => cases shown
        | cons piece each =>
            obtain ⟨rfl, tail⟩ := List.cons.inj shown
            rw [Piece.bytes_cons] at carried
            obtain ⟨middle, first, more⟩ := Buffer.carries_append_iff.mp carried
            refine ⟨_, middle, pieces.reads first, ?_⟩
            by_cases last : isLast (Piece.value piece) = true
            · have none : rest = [] := by simpa [onlyLast, last] using only
              rw [if_pos last]
              rw [none] at tail ⊢
              have empty : each = [] := List.map_eq_nil_iff.mp tail
              rw [empty] at more
              exact ⟨rfl, more.eq_start_of_nil⟩
            · have plain : isLast (Piece.value piece) = false := by simpa using last
              rw [if_neg last]
              have others : onlyLast isLast rest = true := by simpa [onlyLast, plain] using only
              exact ⟨rest, rfl, ih.mpr ⟨each, tail, others, more⟩⟩

/-- The reader of a section, which is given both of its ends, reads exactly the pieces that reach
from one to the other. It is not asked about an end behind the buffer: some checks are passed
there by bytes that are missing. -/
def ReadsSections (reader : Int → Int → Reader α) (π : Type) [Piece π α] : Prop :=
  ∀ {buffer : Buffer} {stop place : Nat} {first : Int} {a : α}, stop ≤ buffer.size →
    ((reader first stop).Gives buffer place a ↔ ∃ (start : Nat) (piece : π), first = start ∧
      Piece.value piece = a ∧ buffer.Carries start stop (Piece.bytes piece))

theorem ReadsSections.exists_piece {reader : Int → Int → Reader α} {place : Nat} {first last : Int}
    {a : α} (sections : ReadsSections reader π) (begins : first = start) (ends : last = stop)
    (inside : stop ≤ buffer.size) (given : (reader first last).Gives buffer place a) :
    ∃ piece : π, Piece.value piece = a ∧ buffer.Carries start stop (Piece.bytes piece) := by
  rw [ends] at given
  obtain ⟨found, piece, same, shown, carried⟩ := (sections inside).mp given
  obtain rfl : found = start := by omega
  exact ⟨piece, shown, carried⟩

theorem ReadsSections.gives {reader : Int → Int → Reader α} {place : Nat} {first last : Int}
    {piece : π} (sections : ReadsSections reader π) (begins : first = start) (ends : last = stop)
    (carried : buffer.Carries start stop (Piece.bytes piece)) :
    (reader first last).Gives buffer place (Piece.value piece) := by
  rw [ends]
  exact (sections carried.stop_le).mpr ⟨start, piece, begins, rfl, carried⟩

end Reader

end FighterData
