import FighterData.Proofs.Script.Canonical

/-! Scripts and their bytes determine each other, but for the bytes of reserved slots. An opcode
tells which of the bytes behind it those are, so the actions alone tell which bytes of a script are
lost, and writing the actions again gives the bytes that were read with zeros in those places. -/
namespace FighterData

/-- Zero in place of every byte that is lost. -/
def Bytes.clear (lost : List Bool) (data : Bytes) : Bytes :=
  List.zipWith (fun gone byte => if gone then 0 else byte) lost data

/-- For each byte of the slot, whether it is lost. -/
def Slot.lost (slot : Slot) : List Bool :=
  List.replicate slot.width.size slot.label.isNone

/-- For each byte of the instruction, whether it is lost; the opcode is not. -/
def Instruction.lost (instruction : Instruction) : List Bool :=
  false :: instruction.opcode.slots.flatMap Slot.lost

/-- For each byte of the action, whether it is lost. No byte of the header is, and a header that
ends the script has nothing behind it. -/
def Action.lost (action : Action) : List Bool :=
  List.replicate headerLayout.size false ++
    if marksScriptEnd action.flags then [] else action.instructions.flatMap Instruction.lost

namespace Bytes

/-- There is a mark for every byte, and clearing the marked ones leaves `rest`. -/
structure Clears (lost : List Bool) (data rest : Bytes) : Prop where
  length : lost.length = data.length
  left : clear lost data = rest

variable {lost more : List Bool} {data others rest behind : Bytes}

theorem Clears.append (first : Clears lost data rest) (second : Clears more others behind) :
    Clears (lost ++ more) (data ++ others) (rest ++ behind) where
  length := by rw [List.length_append, List.length_append, first.length, second.length]
  left := by
    rw [← first.left, ← second.left]
    exact List.zipWith_append first.length

theorem clears_kept (data : Bytes) : Clears (List.replicate data.length false) data data where
  length := List.length_replicate
  left := by
    induction data with
    | nil => rfl
    | cons byte data ih => exact congrArg (byte :: ·) ih

theorem clears_lost (data : Bytes) :
    Clears (List.replicate data.length true) data (filled 0 data.length) where
  length := List.length_replicate
  left := by
    induction data with
    | nil => rfl
    | cons byte data ih => exact congrArg (0 :: ·) ih

theorem clears_pieces {π α : Type} [Piece π α] {lost : α → List Bool} {written : α → Bytes}
    {pieces : List π}
    (each : ∀ piece ∈ pieces,
      Clears (lost (Piece.value piece)) (Piece.bytes piece) (written (Piece.value piece))) :
    Clears ((Piece.value pieces).flatMap lost) (Piece.bytes pieces)
      ((Piece.value pieces).flatMap written) := by
  induction pieces with
  | nil => exact ⟨rfl, rfl⟩
  | cons piece pieces ih =>
      rw [List.forall_mem_cons] at each
      rw [Piece.value_cons, Piece.bytes_cons, List.flatMap_cons, List.flatMap_cons]
      exact each.1.append (ih each.2)

end Bytes

theorem Width.encode_zero (width : Width) : width.encode 0 = Bytes.filled 0 width.size := by
  cases width <;> rfl

/-- The values of the reserved slots are the ones that are lost. -/
theorem Slot.clears_spell {slots : List Slot} {values : List Int}
    (exact : values.length = slots.length) :
    Bytes.Clears (slots.flatMap lost) (Layout.spell (slots.map width) values)
      (Layout.spell (slots.map width) (spread slots (keep slots values))) := by
  induction slots generalizing values with
  | nil => exact ⟨rfl, rfl⟩
  | cons slot slots ih =>
      cases values with
      | nil => cases exact
      | cons value rest =>
          have length : rest.length = slots.length := by simpa using exact
          have behind := ih length
          have size := Width.length_encode slot.width value
          rw [List.flatMap_cons]
          cases named : slot.label with
          | none =>
              have gone : Bytes.Clears slot.lost (slot.width.encode value)
                  (slot.width.encode 0) := by
                rw [lost, named, Width.encode_zero, ← size]
                exact Bytes.clears_lost _
              simpa [keep, spread, named, Layout.spell] using gone.append behind
          | some label =>
              have kept : Bytes.Clears slot.lost (slot.width.encode value)
                  (slot.width.encode value) := by
                rw [lost, named, ← size]
                exact Bytes.clears_kept _
              simpa [keep, spread, named, Layout.spell] using kept.append behind

theorem InstructionPiece.clears (piece : InstructionPiece) :
    Bytes.Clears piece.instruction.lost (Piece.bytes piece) piece.instruction.bytes := by
  have exact : piece.values.length = piece.opcode.slots.length := by
    rw [Layout.length_of_holds piece.fits]
    exact List.length_map _
  exact (Bytes.clears_kept [piece.opcode.code]).append (Slot.clears_spell exact)

theorem ActionPiece.clears (piece : ActionPiece) :
    Bytes.Clears piece.action.lost (Piece.bytes piece) piece.action.bytes := by
  have size : (Action.headerLayout.spell piece.header).length = Action.headerLayout.size :=
    Layout.length_spell piece.fits
  have header := Bytes.clears_kept (Action.headerLayout.spell piece.header)
  rw [size] at header
  have flags : piece.action.flags = piece.flags := rfl
  have instructions : piece.action.instructions = piece.instructions := rfl
  rw [Action.lost, Action.bytes, header_action, flags, instructions]
  refine header.append ?_
  have closed := piece.closed
  have same : Action.marksScriptEnd (piece.header.getD 0 0) =
      Action.marksScriptEnd piece.flags := rfl
  rw [same] at closed
  by_cases marked : Action.marksScriptEnd piece.flags = true
  · rw [if_pos marked] at closed
    rw [if_pos marked, if_pos marked, closed]
    exact ⟨rfl, rfl⟩
  · rw [if_neg marked, if_neg marked, instructions_of_unmarked marked]
    exact Bytes.clears_pieces fun instruction _ => instruction.clears

theorem ActionsPiece.clears (piece : ActionsPiece) :
    Bytes.Clears ((Piece.value piece).flatMap Action.lost) (Piece.bytes piece)
      ((Piece.value piece).flatMap Action.bytes) :=
  Bytes.clears_pieces fun action _ => action.clears

namespace Action

variable {actions : List Action} {buffer : Buffer} {start stop : Nat}

/-- A script that fits is read back from its bytes, wherever they stand. -/
theorem reads_bytes (fits : ScriptFits actions) (before behind : Bytes) :
    readAll.Reads (before ++ actions.flatMap bytes ++ behind).toArray before.length actions
      (before.length + (actions.flatMap bytes).length) := by
  obtain ⟨piece, rfl, plain⟩ := ActionsPiece.exists_plain fits
  rw [plain.bytes_eq]
  exact readAll_readsPieces.reads (Buffer.carries_middle before (Piece.bytes piece) behind)

/-- The actions that were read are written as the bytes that were read, without what is lost. -/
theorem clears_of_reads (read : readAll.Reads buffer start actions stop) :
    ScriptFits actions ∧ ∃ data, buffer.Carries start stop data ∧
      Bytes.Clears (actions.flatMap lost) data (actions.flatMap bytes) := by
  obtain ⟨piece, rfl, carried⟩ := readAll_readsPieces.mp read
  exact ⟨piece.scriptFits, Piece.bytes piece, carried, piece.clears⟩

/-- Scripts that fit are the scripts that can be read. Encoding and reading undo each other, but for
the bytes of reserved slots, which are written as zeros. -/
theorem encodeAll_readAll_bijection :
    (∀ actions, ScriptFits actions → ∃ data, encodeAll actions = .ok data ∧
      ∀ before behind : Bytes, readAll.Reads (before ++ data ++ behind).toArray before.length actions
        (before.length + data.length)) ∧
    ∀ buffer start actions stop, readAll.Reads buffer start actions stop →
      ScriptFits actions ∧ ∃ data, buffer.Carries start stop data ∧
        (actions.flatMap lost).length = data.length ∧
        encodeAll actions = .ok (Bytes.clear (actions.flatMap lost) data) := by
  refine ⟨?_, ?_⟩
  · intro actions fits
    exact ⟨_, encodeAll_of_fits fits, reads_bytes fits⟩
  · intro buffer start actions stop read
    obtain ⟨fits, data, carried, clears⟩ := clears_of_reads read
    refine ⟨fits, data, carried, clears.length, ?_⟩
    rw [clears.left]
    exact encodeAll_of_fits fits

/-- A script with a reserved slot, which holds nine in `notedBytes`. -/
def noted : List Action :=
  [{ flags := 1, body := .code [.ofSlots .unk5 [2, 0], .scriptEnd 6 7] }]

def notedBytes : Bytes :=
  [1, 0, 0, 0, 0, 0, 0, 0, 5, 2, 9, 0, 253, 6, 7, 0]

theorem encodeAll_readAll_noted :
    readAll.Reads notedBytes.toArray 0 noted 16 ∧
      encodeAll noted = .ok [1, 0, 0, 0, 0, 0, 0, 0, 5, 2, 0, 0, 253, 6, 7, 0] ∧
      ∃ data, encodeAll noted = .ok data ∧
        readAll.Reads ([3, 4] ++ data ++ [5]).toArray 2 noted (2 + data.length) := by
  have read : readAll.Reads notedBytes.toArray 0 noted 16 := ⟨rfl, rfl⟩
  obtain ⟨written, reading⟩ := encodeAll_readAll_bijection
  obtain ⟨fits, data, carried, _, encoded⟩ := reading _ _ _ _ read
  obtain rfl : data = notedBytes := carried.eq_of_whole
  obtain ⟨data, again, back⟩ := written noted fits
  exact ⟨read, encoded, data, again, back [3, 4] [5]⟩

end Action

end FighterData
