import FighterData.Proofs.Piece
import FighterData.Script

/-! Scripts as they stand in a file. The pieces keep what reading drops: the values of the reserved
slots. Every reader of the scripts reads exactly its pieces. -/
namespace FighterData

/-- An instruction with a value for each of its slots, the reserved ones included. -/
structure InstructionPiece where
  opcode : Opcode
  values : List Int
  fits : opcode.layout.holds values = true

namespace InstructionPiece

def instruction (piece : InstructionPiece) : Instruction :=
  .ofSlots piece.opcode piece.values

def bytes (piece : InstructionPiece) : Bytes :=
  piece.opcode.code :: piece.opcode.layout.spell piece.values

instance : Piece InstructionPiece Instruction where
  value := instruction
  bytes := bytes

end InstructionPiece

theorem Instruction.readsPieces : Instruction.read.ReadsPieces InstructionPiece := by
  intro buffer start stop instruction
  simp only [read, Reader.reads_bind_iff, Reader.reads_position_iff, Reader.reads_byte_iff]
  constructor
  · intro read
    obtain ⟨_, _, ⟨_, rfl⟩, code, middle, first, behind⟩ := read
    cases known : Opcode.ofCode? code with
    | none =>
        simp only [known] at behind
        exact absurd behind Reader.not_reads_refuse
    | some opcode =>
        simp only [known, Reader.reads_bind_iff, Reader.reads_fields_iff_spell,
          Reader.reads_pure_iff] at behind
        obtain ⟨values, _, ⟨fits, carried⟩, rfl, rfl⟩ := behind
        refine ⟨⟨opcode, values, fits⟩, rfl, ?_⟩
        rw [← Opcode.code_of_ofCode? known] at first
        exact first.append carried
  · intro found
    obtain ⟨piece, rfl, carried⟩ := found
    have parts : Piece.bytes piece =
        [piece.opcode.code] ++ piece.opcode.layout.spell piece.values := rfl
    rw [parts] at carried
    obtain ⟨middle, first, behind⟩ := Buffer.carries_append_iff.mp carried
    refine ⟨start, start, ⟨rfl, rfl⟩, piece.opcode.code, middle, first, ?_⟩
    simp only [Opcode.ofCode?_code, Reader.reads_bind_iff, Reader.reads_fields_iff_spell,
      Reader.reads_pure_iff]
    exact ⟨piece.values, stop, ⟨piece.fits, behind⟩, rfl, rfl⟩

/-- An action with its header fields. The header of a script-end action stands for the only
instruction, so such an action has no instruction pieces. -/
structure ActionPiece where
  header : List Int
  fits : Action.headerLayout.holds header = true
  body : List InstructionPiece
  closed : if Action.marksScriptEnd (header.getD 0 0) then body = []
    else onlyLast Instruction.isTerminal (Piece.value body) = true

namespace ActionPiece

def flags (piece : ActionPiece) : Int :=
  piece.header.getD 0 0

def instructions (piece : ActionPiece) : List Instruction :=
  if Action.marksScriptEnd piece.flags then [Action.headerEnd piece.flags]
  else Piece.value piece.body

def action (piece : ActionPiece) : Action :=
  Action.ofHeader piece.header piece.instructions

theorem instructions_of_marked {piece : ActionPiece}
    (marked : Action.marksScriptEnd piece.flags = true) :
    piece.instructions = [Action.headerEnd piece.flags] :=
  if_pos marked

theorem instructions_of_unmarked {piece : ActionPiece}
    (plain : ¬ Action.marksScriptEnd piece.flags = true) :
    piece.instructions = Piece.value piece.body :=
  if_neg plain

def bytes (piece : ActionPiece) : Bytes :=
  Action.headerLayout.spell piece.header ++ Piece.bytes piece.body

instance : Piece ActionPiece Action where
  value := action
  bytes := bytes

end ActionPiece

theorem Action.readsPieces : Action.read.ReadsPieces ActionPiece := by
  intro buffer start stop action
  simp only [read, Reader.reads_bind_iff, Reader.reads_fields_iff_spell]
  constructor
  · intro read
    obtain ⟨header, middle, ⟨fits, carried⟩, behind⟩ := read
    by_cases marked : marksScriptEnd (header.getD 0 0) = true
    · rw [if_pos marked] at behind
      obtain ⟨rfl, rfl⟩ := Reader.reads_pure_iff.mp behind
      let piece : ActionPiece := ⟨header, fits, [], by rw [if_pos marked]⟩
      have shown : piece.instructions = [headerEnd piece.flags] :=
        ActionPiece.instructions_of_marked marked
      refine ⟨piece, congrArg (ofHeader header) shown, ?_⟩
      have alone : Piece.bytes piece = headerLayout.spell header := List.append_nil _
      rwa [alone]
    · rw [if_neg marked] at behind
      simp only [Reader.reads_bind_iff, Reader.reads_pure_iff] at behind
      obtain ⟨instructions, _, items, rfl, rfl⟩ := behind
      obtain ⟨body, rfl, only, more⟩ :=
        (Instruction.readsPieces.upToLast Instruction.read_advances).mp items
      let piece : ActionPiece := ⟨header, fits, body, by rw [if_neg marked]; exact only⟩
      have shown : piece.instructions = Piece.value body :=
        ActionPiece.instructions_of_unmarked marked
      exact ⟨piece, congrArg (ofHeader header) shown, carried.append more⟩
  · intro found
    obtain ⟨piece, rfl, carried⟩ := found
    obtain ⟨middle, first, behind⟩ := Buffer.carries_append_iff.mp carried
    refine ⟨piece.header, middle, ⟨piece.fits, first⟩, ?_⟩
    have closed := piece.closed
    by_cases marked : marksScriptEnd (piece.header.getD 0 0) = true
    · rw [if_pos marked] at closed ⊢
      rw [closed] at behind
      have shown := ActionPiece.instructions_of_marked marked
      exact Reader.reads_pure_iff.mpr
        ⟨congrArg (ofHeader piece.header) shown, behind.eq_start_of_nil⟩
    · rw [if_neg marked] at closed ⊢
      have shown := ActionPiece.instructions_of_unmarked marked
      have items := (Instruction.readsPieces.upToLast Instruction.read_advances).mpr
        ⟨piece.body, rfl, closed, behind⟩
      refine Reader.reads_bind_iff.mpr ⟨_, stop, items, Reader.reads_pure_iff.mpr ⟨?_, rfl⟩⟩
      exact congrArg (ofHeader piece.header) shown

/-- The actions of one script, the last of which ends it. -/
structure ActionsPiece where
  actions : List ActionPiece
  ended : onlyLast Action.isLast (Piece.value actions) = true

instance : Piece ActionsPiece (List Action) where
  value piece := Piece.value piece.actions
  bytes piece := Piece.bytes piece.actions

theorem Action.readAll_readsPieces : Action.readAll.ReadsPieces ActionsPiece := by
  intro buffer start stop actions
  simp only [readAll, Reader.reads_bind_iff, Reader.reads_position_iff, Reader.reads_note_iff,
    Reader.reads_pure_iff, Action.readsPieces.upToLast Action.read_advances]
  constructor
  · intro read
    obtain ⟨_, _, ⟨_, rfl⟩, items, middle, ⟨each, rfl, ended, carried⟩, _, _, ⟨_, rfl⟩, _, _, rfl,
      rfl, rfl⟩ := read
    exact ⟨⟨each, ended⟩, rfl, carried⟩
  · intro found
    obtain ⟨piece, rfl, carried⟩ := found
    exact ⟨start, start, ⟨rfl, rfl⟩, _, stop, ⟨piece.actions, rfl, piece.ended, carried⟩, stop, stop,
      ⟨rfl, rfl⟩, (), stop, rfl, rfl, rfl⟩

structure ObjectScriptPiece where
  actions : ActionsPiece

instance : Piece ObjectScriptPiece ObjectScript where
  value piece := ⟨Piece.value piece.actions⟩
  bytes piece := Piece.bytes piece.actions

theorem ObjectScript.readsPieces : ObjectScript.read.ReadsPieces ObjectScriptPiece := by
  intro buffer start stop script
  simp only [read, Reader.reads_bind_iff, Reader.reads_pure_iff]
  constructor
  · intro read
    obtain ⟨actions, _, all, rfl, rfl⟩ := read
    obtain ⟨piece, rfl, carried⟩ := Action.readAll_readsPieces.mp all
    exact ⟨⟨piece⟩, rfl, carried⟩
  · intro found
    obtain ⟨piece, rfl, carried⟩ := found
    exact ⟨_, stop, Action.readAll_readsPieces.mpr ⟨piece.actions, rfl, carried⟩, rfl, rfl⟩

theorem PlayData.reads_iff {buffer : Buffer} {start stop : Nat} {data : PlayData} :
    PlayData.read.Reads buffer start data stop ↔
      layout.holds data.values = true ∧
        buffer.Carries start stop (magic ++ layout.spell data.values) := by
  simp only [read, Reader.reads_bind_iff, Reader.reads_expect_iff, Reader.reads_bytes_iff,
    Reader.reads_pure_iff]
  constructor
  · intro read
    obtain ⟨_, middle, first, raw, _, ⟨size, carried⟩, rfl, rfl⟩ := read
    have exact : raw.length = layout.size := by omega
    have spelled := Layout.encode_eq_ok_iff.mp (Layout.encode_decode exact)
    refine ⟨spelled.1, first.append ?_⟩
    rw [← spelled.2]
    exact carried
  · intro found
    obtain ⟨fits, carried⟩ := found
    obtain ⟨middle, first, behind⟩ := Buffer.carries_append_iff.mp carried
    refine ⟨(), middle, first, _, stop, ⟨?_, behind⟩, ?_, rfl⟩
    · rw [Layout.length_spell fits]
    · obtain ⟨values, complete⟩ := data
      have same : layout.decode (layout.spell values) = values :=
        Layout.decode_of_encode (Layout.encode_of_holds fits)
      simp [same]

structure PlayerScriptPiece where
  playData : PlayData
  fits : PlayData.layout.holds playData.values = true
  block : Bytes
  size : block.length = PlayerScript.blockSize
  actions : ActionsPiece

namespace PlayerScriptPiece

def script (piece : PlayerScriptPiece) : PlayerScript :=
  ⟨piece.playData, piece.block, Piece.value piece.actions⟩

def bytes (piece : PlayerScriptPiece) : Bytes :=
  PlayData.magic ++ PlayData.layout.spell piece.playData.values ++ piece.block
    ++ Piece.bytes piece.actions

instance : Piece PlayerScriptPiece PlayerScript where
  value := script
  bytes := bytes

end PlayerScriptPiece

theorem PlayerScript.readsPieces : PlayerScript.read.ReadsPieces PlayerScriptPiece := by
  intro buffer start stop script
  simp only [read, Reader.reads_bind_iff, PlayData.reads_iff, Reader.reads_bytes_iff,
    Reader.reads_pure_iff]
  constructor
  · intro read
    obtain ⟨playData, middle, ⟨fits, first⟩, block, behind, ⟨size, second⟩, actions, _, all, rfl,
      rfl⟩ := read
    obtain ⟨piece, rfl, third⟩ := Action.readAll_readsPieces.mp all
    exact ⟨⟨playData, fits, block, by omega, piece⟩, rfl, (first.append second).append third⟩
  · intro found
    obtain ⟨piece, rfl, carried⟩ := found
    obtain ⟨behind, front, third⟩ := Buffer.carries_append_iff.mp carried
    obtain ⟨middle, first, second⟩ := Buffer.carries_append_iff.mp front
    exact ⟨piece.playData, middle, ⟨piece.fits, first⟩, piece.block, behind,
      ⟨by rw [piece.size], second⟩, _, stop,
      Action.readAll_readsPieces.mpr ⟨piece.actions, rfl, third⟩, rfl, rfl⟩

end FighterData
