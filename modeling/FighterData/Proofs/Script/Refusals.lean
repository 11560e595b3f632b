import FighterData.Proofs.Script.Pieces
import FighterData.Reader.Failure

/-! Where the reading of a script breaks off, and why. Complete actions and complete instructions
stand before the place where it happens, so that place and the cause are determined by the buffer:
a byte there is no opcode, or the buffer ends inside a header or an instruction, or before one.
Bytes behind the buffer change nothing about a script that was read, nor about a byte that is no
opcode. -/
namespace FighterData

namespace Reader

variable {α π : Type} [Piece π α] {buffer : Buffer} {start place stop : Nat} {fault : Fault}

/-- Pieces stand from one place to the other, and none of them is the last. -/
def Passes (π : Type) {α : Type} [Piece π α] (isLast : α → Bool) (buffer : Buffer)
    (start place : Nat) : Prop :=
  ∃ front : List π, buffer.Carries start place (Piece.bytes front) ∧
    ∀ a ∈ Piece.value front, isLast a = false

theorem passes_self {isLast : α → Bool} (inside : start ≤ buffer.size) :
    Passes π isLast buffer start start :=
  ⟨[], Buffer.carries_nil inside, fun _ none => absurd none List.not_mem_nil⟩

theorem Passes.bounds {isLast : α → Bool} (passed : Passes π isLast buffer start place) :
    start ≤ place ∧ place ≤ buffer.size := by
  obtain ⟨front, carried, _⟩ := passed
  exact ⟨carried.start_le, carried.stop_le⟩

theorem Passes.extend {isLast : α → Bool} (passed : Passes π isLast buffer start place)
    (more : Buffer) : Passes π isLast (buffer ++ more) start place := by
  obtain ⟨front, carried, unmarked⟩ := passed
  exact ⟨front, carried.extend more, unmarked⟩

/-- A piece that is not the last one, and then what has been passed behind it. -/
theorem Passes.cons {isLast : α → Bool} {piece : π} {middle : Nat}
    (first : buffer.Carries start middle (Piece.bytes piece))
    (unmarked : isLast (Piece.value piece) = false)
    (passed : Passes π isLast buffer middle place) : Passes π isLast buffer start place := by
  obtain ⟨front, carried, others⟩ := passed
  refine ⟨piece :: front, first.append carried, ?_⟩
  rw [Piece.value_cons, List.forall_mem_cons]
  exact ⟨unmarked, others⟩

/-- A reader that goes on to the last piece is refused where the next piece is, behind pieces that
are not the last. -/
theorem ReadsPieces.refuses_upToLast_iff {reader : Reader α} (pieces : reader.ReadsPieces π)
    (advances : reader.Advances) {isLast : α → Bool} (inside : start ≤ buffer.size) :
    (Reader.upToLast reader isLast).Refuses buffer start fault stop ↔
      ∃ place, Passes π isLast buffer start place ∧ reader.Refuses buffer place fault stop := by
  constructor
  · intro refused
    -- on the bytes that are left, since every item takes some of them
    generalize left : buffer.size - start = count
    induction count using Nat.strongRecOn generalizing start with
    | ind count ih =>
        obtain here | ⟨a, middle, read, unmarked, later⟩ :=
          (Reader.refuses_upToLast_iff advances).mp refused
        · exact ⟨start, passes_self inside, here⟩
        · have bounds := advances _ _ _ _ read
          obtain ⟨piece, rfl, carried⟩ := pieces.mp read
          obtain ⟨place, passed, broken⟩ :=
            ih (buffer.size - middle) (by omega) bounds.2 later rfl
          exact ⟨place, passed.cons carried unmarked, broken⟩
  · intro found
    obtain ⟨place, ⟨front, carried, unmarked⟩, broken⟩ := found
    induction front generalizing start with
    | nil =>
        obtain rfl := carried.eq_start_of_nil
        exact (Reader.refuses_upToLast_iff advances).mpr (Or.inl broken)
    | cons piece front ih =>
        rw [Piece.value_cons, List.forall_mem_cons] at unmarked
        rw [Piece.bytes_cons] at carried
        obtain ⟨middle, first, rest⟩ := Buffer.carries_append_iff.mp carried
        have later := ih first.stop_le rest unmarked.2
        exact (Reader.refuses_upToLast_iff advances).mpr
          (Or.inr ⟨_, middle, pieces.reads first, unmarked.1, later⟩)

end Reader

namespace Instruction

variable {buffer : Buffer} {place stop : Nat} {fault : Fault}

/-- Why no instruction stands at a place: there is nothing, or a byte that is no opcode, or an
opcode with too few bytes behind it. -/
inductive Breaks (buffer : Buffer) (place : Nat) : Fault → Nat → Prop
  | missing (ended : buffer.size ≤ place) :
      Breaks buffer place (.mismatch (.shortRead 1 (buffer.size - place)) (some place)) place
  | unknown {code : UInt8} (here : buffer[place]? = some code)
      (none : Opcode.ofCode? code = none) :
      Breaks buffer place (.unknownOpcode code place) (place + 1)
  | cut {opcode : Opcode} (here : buffer[place]? = some opcode.code)
      (ended : buffer.size < place + opcode.size) :
      Breaks buffer place (.mismatch (.shortRead opcode.layout.size (buffer.size - (place + 1)))
        (some (place + 1 : Nat))) (place + 1)

theorem refuses_read_iff :
    read.Refuses buffer place fault stop ↔ Breaks buffer place fault stop := by
  simp only [read, Reader.refuses_bind_iff, Reader.reads_position_iff, Reader.reads_byte_iff,
    Reader.refuses_byte_iff, Reader.refuses_bytes_iff, Buffer.carries_singleton_iff]
  constructor
  · intro refused
    obtain none | ⟨_, _, ⟨rfl, rfl⟩, short | ⟨code, _, ⟨here, rfl⟩, behind⟩⟩ := refused
    · cases none.1
    · obtain ⟨ended, rfl, rfl⟩ := short
      exact .missing (by omega)
    · cases known : Opcode.ofCode? code with
      | none =>
          simp only [known] at behind
          obtain ⟨rfl, rfl⟩ := Reader.refuses_refuse_iff.mp behind
          exact .unknown here known
      | some opcode =>
          simp only [known, Reader.refuses_bind_iff, Reader.refuses_fields_iff,
            Reader.refuses_bytes_iff, Reader.not_refuses_pure, and_false, exists_false,
            or_false] at behind
          obtain ⟨ended, rfl, rfl⟩ := behind
          rw [← Opcode.code_of_ofCode? known] at here
          exact .cut here (by rw [Opcode.size]; omega)
  · intro broken
    refine Or.inr ⟨place, place, ⟨rfl, rfl⟩, ?_⟩
    cases broken with
    | missing ended => exact Or.inl ⟨Or.inr (by omega), rfl, rfl⟩
    | unknown here none =>
        refine Or.inr ⟨_, _, ⟨here, rfl⟩, ?_⟩
        simp only [none]
        exact Reader.refuses_refuse_iff.mpr ⟨rfl, rfl⟩
    | cut here ended =>
        rw [Opcode.size] at ended
        refine Or.inr ⟨_, _, ⟨here, rfl⟩, ?_⟩
        simp only [Opcode.ofCode?_code]
        refine Reader.refuses_bind_iff.mpr (Or.inl (Reader.refuses_fields_iff.mpr ?_))
        exact Reader.refuses_bytes_iff.mpr ⟨Or.inr (by omega), rfl, rfl⟩

end Instruction

namespace Action

variable {buffer : Buffer} {start place stop : Nat} {fault : Fault}

/-- A place behind complete actions, none of which ends the script: the next action starts there. -/
def StartsAt (buffer : Buffer) (start place : Nat) : Prop :=
  Reader.Passes ActionPiece isLast buffer start place

/-- A place behind complete actions, a header that does not end the script, and complete
instructions none of which is terminal: the next instruction starts there. -/
def GoesOnAt (buffer : Buffer) (start place : Nat) : Prop :=
  ∃ head middle header, StartsAt buffer start head ∧ headerLayout.holds header = true ∧
    marksScriptEnd (header.getD 0 0) = false ∧
    buffer.Carries head middle (headerLayout.spell header) ∧
    Reader.Passes InstructionPiece Instruction.isTerminal buffer middle place

/-- How a script breaks off: the buffer ends inside the header of an action or before it, or no
instruction stands where the next one starts. -/
inductive Breaks (buffer : Buffer) (start : Nat) : Fault → Nat → Prop
  | header {place : Nat} (reached : StartsAt buffer start place)
      (ended : buffer.size < place + headerLayout.size) :
      Breaks buffer start
        (.mismatch (.shortRead headerLayout.size (buffer.size - place)) (some place)) place
  | instruction {place stop : Nat} {fault : Fault} (reached : GoesOnAt buffer start place)
      (broken : Instruction.Breaks buffer place fault stop) : Breaks buffer start fault stop

theorem refuses_read_iff (inside : place ≤ buffer.size) :
    read.Refuses buffer place fault stop ↔
      (buffer.size < place + headerLayout.size ∧
        fault = .mismatch (.shortRead headerLayout.size (buffer.size - place)) (some place) ∧
          stop = place) ∨
      ∃ header middle next, headerLayout.holds header = true ∧
        marksScriptEnd (header.getD 0 0) = false ∧
        buffer.Carries place middle (headerLayout.spell header) ∧
        Reader.Passes InstructionPiece Instruction.isTerminal buffer middle next ∧
        Instruction.Breaks buffer next fault stop := by
  simp only [read, Reader.refuses_bind_iff, Reader.refuses_fields_iff, Reader.refuses_bytes_iff,
    Reader.reads_fields_iff_spell]
  constructor
  · intro refused
    obtain ⟨short, rfl, rfl⟩ | ⟨header, middle, ⟨fits, carried⟩, behind⟩ := refused
    · exact Or.inl ⟨by omega, rfl, rfl⟩
    · split at behind
      next => exact absurd behind Reader.not_refuses_pure
      next plain =>
        simp only [Reader.refuses_bind_iff, Reader.not_refuses_pure, and_false, exists_false,
          or_false] at behind
        obtain ⟨next, passed, broken⟩ := (Instruction.readsPieces.refuses_upToLast_iff
          Instruction.read_advances carried.stop_le).mp behind
        exact Or.inr ⟨header, middle, next, fits, by simpa using plain, carried, passed,
          Instruction.refuses_read_iff.mp broken⟩
  · intro broken
    obtain ⟨ended, rfl, rfl⟩ | ⟨header, middle, next, fits, plain, carried, passed, broken⟩ := broken
    · exact Or.inl ⟨Or.inr (by omega), rfl, rfl⟩
    · refine Or.inr ⟨header, middle, ⟨fits, carried⟩, ?_⟩
      rw [if_neg (by rw [plain]; decide)]
      refine Reader.refuses_bind_iff.mpr (Or.inl ?_)
      exact (Instruction.readsPieces.refuses_upToLast_iff Instruction.read_advances
        carried.stop_le).mpr ⟨next, passed, Instruction.refuses_read_iff.mpr broken⟩

theorem refuses_readAll_iff (inside : start ≤ buffer.size) :
    readAll.Refuses buffer start fault stop ↔ Breaks buffer start fault stop := by
  have whole : readAll.Refuses buffer start fault stop ↔
      (Reader.upToLast read isLast).Refuses buffer start fault stop := by
    simp only [readAll, Reader.refuses_bind_iff, Reader.not_refuses_position,
      Reader.not_refuses_note, Reader.not_refuses_pure, Reader.reads_position_iff, and_false,
      exists_false, or_false, false_or]
    constructor
    · rintro ⟨_, _, ⟨_, rfl⟩, refused⟩
      exact refused
    · intro refused
      exact ⟨start, start, ⟨rfl, rfl⟩, refused⟩
  rw [whole, readsPieces.refuses_upToLast_iff read_advances inside]
  constructor
  · intro refused
    obtain ⟨place, reached, broken⟩ := refused
    obtain ⟨ended, rfl, rfl⟩ | ⟨header, middle, next, fits, plain, carried, passed, broken⟩ :=
      (refuses_read_iff reached.bounds.2).mp broken
    · exact .header reached ended
    · exact .instruction ⟨place, middle, header, reached, fits, plain, carried, passed⟩ broken
  · intro broken
    cases broken with
    | header reached ended =>
        exact ⟨_, reached, (refuses_read_iff reached.bounds.2).mpr (Or.inl ⟨ended, rfl, rfl⟩)⟩
    | instruction reached broken =>
        obtain ⟨head, middle, header, passed, fits, plain, carried, inner⟩ := reached
        refine ⟨head, passed, (refuses_read_iff passed.bounds.2).mpr (Or.inr ?_)⟩
        exact ⟨header, middle, _, fits, plain, carried, inner, broken⟩

theorem GoesOnAt.bounds (reached : GoesOnAt buffer start place) :
    start + headerLayout.size ≤ place ∧ place ≤ buffer.size := by
  obtain ⟨head, middle, header, passed, fits, _, carried, inner⟩ := reached
  have ends := carried.stop_eq
  rw [Layout.length_spell fits] at ends
  have before := passed.bounds
  have behind := inner.bounds
  omega

theorem GoesOnAt.extend (reached : GoesOnAt buffer start place) (more : Buffer) :
    GoesOnAt (buffer ++ more) start place := by
  obtain ⟨head, middle, header, passed, fits, plain, carried, inner⟩ := reached
  exact ⟨head, middle, header, passed.extend more, fits, plain, carried.extend more,
    inner.extend more⟩

theorem breaks_unknownOpcode_iff {code : UInt8} :
    Breaks buffer start (.unknownOpcode code place) stop ↔
      GoesOnAt buffer start place ∧ buffer[place]? = some code ∧ Opcode.ofCode? code = none ∧
        stop = place + 1 := by
  constructor
  · intro broken
    cases broken with
    | instruction reached broken =>
        cases broken with
        | unknown here none => exact ⟨reached, here, none, rfl⟩
  · intro found
    obtain ⟨reached, here, none, rfl⟩ := found
    exact .instruction reached (.unknown here none)

/-- A script is read where the buffer carries a whole one, and breaks off everywhere else. Where a
byte is no opcode, or where a script has been read, it does not matter what stands behind the
buffer. -/
theorem readAll_reads_or_breaks (inside : start ≤ buffer.size) :
    ((∃ (script : ActionsPiece) (stop : Nat), buffer.Carries start stop (Piece.bytes script) ∧
        readAll.Reads buffer start (Piece.value script) stop) ∨
      ∃ fault stop, readAll.Refuses buffer start fault stop) ∧
    (∀ fault stop, readAll.Refuses buffer start fault stop ↔ Breaks buffer start fault stop) ∧
    (∀ code place stop, readAll.Refuses buffer start (.unknownOpcode code place) stop →
      start + 8 ≤ place ∧ place < buffer.size ∧ buffer[place]? = some code ∧
        (∀ opcode : Opcode, opcode.code ≠ code) ∧ GoesOnAt buffer start place) ∧
    ∀ more : Buffer,
      (∀ actions stop, readAll.Reads buffer start actions stop →
        readAll.Reads (buffer ++ more) start actions stop) ∧
      ∀ code place stop, readAll.Refuses buffer start (.unknownOpcode code place) stop →
        readAll.Refuses (buffer ++ more) start (.unknownOpcode code place) stop := by
  refine ⟨?_, fun fault stop => refuses_readAll_iff inside, ?_, fun more => ⟨?_, ?_⟩⟩
  · obtain ⟨actions, stop, read⟩ | refused := Reader.reads_or_refuses readAll buffer start
    · obtain ⟨script, rfl, carried⟩ := readAll_readsPieces.mp read
      exact Or.inl ⟨script, stop, carried, read⟩
    · exact Or.inr refused
  · intro code place stop refused
    obtain ⟨reached, here, none, _⟩ :=
      breaks_unknownOpcode_iff.mp ((refuses_readAll_iff inside).mp refused)
    refine ⟨reached.bounds.1, (Array.getElem?_eq_some_iff.mp here).1, here, ?_, reached⟩
    rintro opcode rfl
    rw [Opcode.ofCode?_code] at none
    cases none
  · intro actions stop read
    obtain ⟨script, rfl, carried⟩ := readAll_readsPieces.mp read
    exact readAll_readsPieces.reads (carried.extend more)
  · intro code place stop refused
    obtain ⟨reached, here, none, rfl⟩ :=
      breaks_unknownOpcode_iff.mp ((refuses_readAll_iff inside).mp refused)
    have within : start ≤ (buffer ++ more).size := by
      rw [Array.size_append]
      omega
    refine (refuses_readAll_iff within).mpr (breaks_unknownOpcode_iff.mpr ?_)
    refine ⟨reached.extend more, ?_, none, rfl⟩
    rw [Array.getElem?_append_left (Array.getElem?_eq_some_iff.mp here).1, here]

/-- Behind a byte that belongs to nothing: a whole action, and another one with a byte that is no
opcode in place of its second instruction. -/
def strayBytes : Bytes :=
  [170, 1, 0, 0, 0, 0, 0, 0, 0, 5, 2, 9, 0, 255, 1, 0, 0, 2, 0, 0, 0, 0, 0, 0, 0, 5, 0, 0, 0, 12]

theorem readAll_reads_or_breaks_stray :
    1 ≤ strayBytes.toArray.size ∧
      readAll.Refuses strayBytes.toArray 1 (.unknownOpcode 12 29) 30 ∧
      GoesOnAt strayBytes.toArray 1 29 ∧
      readAll.Refuses (strayBytes.toArray ++ #[0, 253]) 1 (.unknownOpcode 12 29) 30 := by
  have inside : 1 ≤ strayBytes.toArray.size := by decide
  have refused : readAll.Refuses strayBytes.toArray 1 (.unknownOpcode 12 29) 30 := ⟨rfl, rfl⟩
  obtain ⟨_, _, located, extended⟩ := readAll_reads_or_breaks inside
  obtain ⟨_, _, _, _, reached⟩ := located 12 29 30 refused
  exact ⟨inside, refused, reached, (extended #[0, 253]).2 12 29 30 refused⟩

end Action

end FighterData
