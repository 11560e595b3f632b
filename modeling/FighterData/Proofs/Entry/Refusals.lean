import FighterData.Entry
import FighterData.Proofs.Sprite.Refusals

/-! How entries are refused. Cells, palettes and scripts are refused for faults of the format only,
so what an entry can be refused for besides is what its sprites can be refused for: a scan that
comes to the end of the file, because the script is said to start behind it. -/
namespace FighterData

variable {buffer : Buffer}

namespace Cell

theorem read_refusesOnly : read.RefusesOnly buffer Fault.IsFormat := by
  have box : Box.read.RefusesOnly buffer Fault.IsFormat :=
    (Reader.fields_refusesOnly _).bind fun _ => Reader.refusesOnly_pure _
  have info : SpriteInfo.read.RefusesOnly buffer Fault.IsFormat :=
    (Reader.fields_refusesOnly _).bind fun _ => Reader.refusesOnly_pure _
  refine (Reader.field_refusesOnly _ _).bind fun count => (box.times _).bind fun _ => ?_
  exact info.bind fun _ => Reader.refusesOnly_pure _

theorem readArray_refusesOnly (start stop : Int) :
    (readArray start stop).RefusesOnly buffer Fault.IsFormat := by
  refine (EntryArray.read_refusesOnly _ _ _ _ read_refusesOnly).bind fun _ => ?_
  exact (Reader.refusesOnly_note _).bind fun _ => Reader.refusesOnly_pure _

end Cell

theorem Palette.readArray_refusesOnly (start stop : Int) :
    (Palette.readArray start stop).RefusesOnly buffer Fault.IsFormat :=
  EntryArray.read_refusesOnly _ _ _ _
    ((Reader.fields_refusesOnly _).bind fun _ => Reader.refusesOnly_pure _)

theorem Instruction.read_refusesOnly : Instruction.read.RefusesOnly buffer Fault.IsFormat := by
  refine Reader.refusesOnly_position.bind fun _ => Reader.byte_refusesOnly.bind fun code => ?_
  split
  · exact Reader.refusesOnly_refuse rfl
  · exact (Reader.fields_refusesOnly _).bind fun _ => Reader.refusesOnly_pure _

namespace Action

theorem read_refusesOnly : read.RefusesOnly buffer Fault.IsFormat := by
  refine (Reader.fields_refusesOnly _).bind fun header => ?_
  dsimp only
  split
  · exact Reader.refusesOnly_pure _
  · exact (Instruction.read_refusesOnly.upToLast _).bind fun _ => Reader.refusesOnly_pure _

theorem readAll_refusesOnly : readAll.RefusesOnly buffer Fault.IsFormat := by
  refine Reader.refusesOnly_position.bind fun _ => (read_refusesOnly.upToLast _).bind fun _ => ?_
  refine Reader.refusesOnly_position.bind fun _ => ?_
  exact (Reader.refusesOnly_note _).bind fun _ => Reader.refusesOnly_pure _

end Action

theorem PlayerScript.read_refusesOnly : PlayerScript.read.RefusesOnly buffer Fault.IsFormat := by
  have playData : PlayData.read.RefusesOnly buffer Fault.IsFormat :=
    (Reader.expect_refusesOnly _ _).bind fun _ => (Reader.bytes_refusesOnly _).bind fun _ =>
      Reader.refusesOnly_pure _
  refine playData.bind fun _ => (Reader.bytes_refusesOnly _).bind fun _ => ?_
  exact Action.readAll_refusesOnly.bind fun _ => Reader.refusesOnly_pure _

theorem ObjectScript.read_refusesOnly : ObjectScript.read.RefusesOnly buffer Fault.IsFormat :=
  Action.readAll_refusesOnly.bind fun _ => Reader.refusesOnly_pure _

namespace Entry

theorem readHeader_refusesOnly (start : Int) :
    (readHeader start).RefusesOnly buffer Fault.IsFormat := by
  refine (Reader.seek_refusesOnly _).bind fun _ => (Reader.fields_refusesOnly _).bind fun _ => ?_
  exact (Reader.expectGap_refusesOnly _ _ _ _).bind fun _ => Reader.refusesOnly_pure _

theorem readScript_refusesOnly {α : Type} {script : Reader α} (start stop : Int)
    (only : script.RefusesOnly buffer Fault.IsFormat) :
    (readScript script start stop).RefusesOnly buffer Fault.IsFormat := by
  refine (Reader.seek_refusesOnly _).bind fun _ => only.bind fun _ => ?_
  refine Reader.refusesOnly_position.bind fun _ => ?_
  exact (Reader.expectGap_refusesOnly _ _ _ _).bind fun _ => Reader.refusesOnly_pure _

/-- The third pointer of the entry at `start` leads behind the file, and the scan of the last sprite
before it has come to the end of the file. -/
def RunsOut (buffer : Buffer) (start : Int) (fault : Fault) : Prop :=
  ∃ place pointers behind, (readHeader start).Reads buffer place pointers behind ∧
    Sprite.RunsOut buffer (start + pointers.getD 2 0) fault

theorem readSprites_refusesOnly {start : Int} (sprite : Int) {place behind : Nat}
    {pointers : List Int} (header : (readHeader start).Reads buffer place pointers behind) :
    (Sprite.readArray sprite (start + pointers.getD 2 0)).RefusesOnly buffer
      fun fault => fault.IsFormat ∨ RunsOut buffer start fault :=
  (Sprite.readArray_refusesOnly _ _).mono fun _ =>
    Or.imp_right fun cause => ⟨place, pointers, behind, header, cause⟩

end Entry

theorem PlayerEntry.read_refusesOnly (start stop : Int) :
    (PlayerEntry.read start stop).RefusesOnly buffer
      fun fault => fault.IsFormat ∨ Entry.RunsOut buffer start fault := by
  refine ((Entry.readHeader_refusesOnly _).mono fun _ => Or.inl).bind_of_reads
    fun place pointers behind header => ?_
  refine ((Cell.readArray_refusesOnly _ _).mono fun _ => Or.inl).bind fun _ => ?_
  refine (Entry.readSprites_refusesOnly _ header).bind fun _ => ?_
  refine ((Entry.readScript_refusesOnly _ _ PlayerScript.read_refusesOnly).mono
    fun _ => Or.inl).bind fun _ => ?_
  refine ((Palette.readArray_refusesOnly _ _).mono fun _ => Or.inl).bind fun _ => ?_
  exact (Reader.refusesOnly_note _).bind fun _ => Reader.refusesOnly_pure _

theorem ObjectEntry.read_refusesOnly (start stop : Int) :
    (ObjectEntry.read start stop).RefusesOnly buffer
      fun fault => fault.IsFormat ∨ Entry.RunsOut buffer start fault := by
  refine ((Entry.readHeader_refusesOnly _).mono fun _ => Or.inl).bind_of_reads
    fun place pointers behind header => ?_
  refine ((Cell.readArray_refusesOnly _ _).mono fun _ => Or.inl).bind fun _ => ?_
  refine (Entry.readSprites_refusesOnly _ header).bind fun _ => ?_
  refine ((Entry.readScript_refusesOnly _ _ ObjectScript.read_refusesOnly).mono
    fun _ => Or.inl).bind fun _ => ?_
  exact (Reader.refusesOnly_note _).bind fun _ => Reader.refusesOnly_pure _

end FighterData
