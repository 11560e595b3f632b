import FighterData.ObjectBinary
import FighterData.Proofs.Entry.Refusals

/-! How a file is refused. Every file is decoded or refused, for a fault of the format or because a
scan for the end of a sprite comes to the end of the file. The second cause is none of the format,
and there are files with it: it is enough to cut a file behind the header of its last sprite. -/
namespace FighterData

theorem Audio.read_refusesOnly {buffer : Buffer} (start : Int) :
    (Audio.read start).RefusesOnly buffer Fault.IsFormat := by
  refine (PointerTable.read_refusesOnly _ _).bind fun table => Reader.refusesOnly_size.bind
    fun size => ?_
  dsimp only
  split
  · split
    · exact Reader.refusesOnly_refuse_bind rfl
    · exact Reader.refusesOnly_pure _
  · refine Reader.RefusesOnly.bind (Reader.RefusesOnly.forEach fun slot member => ?_) fun _ =>
      (Reader.refusesOnly_note _).bind fun _ => Reader.refusesOnly_pure _
    have resolved (fault : Fault) : table.resolve slot (size - start) = .error fault →
        fault.IsFormat := PointerTable.isFormat_of_resolve (List.mem_range.mp member)
    refine (Reader.refusesOnly_lift resolved).bind fun span => ?_
    exact (Reader.seek_refusesOnly _).bind fun _ => Reader.bytes_refusesOnly _

namespace ObjectBinary

variable {data : Bytes} {fault : Fault}

/-- The scan for the end of the last sprite of an entry, which the table of the file leads to, has
come to the end of the file. -/
def RunsOut (buffer : Buffer) (fault : Fault) : Prop :=
  ∃ place table behind,
    (PointerTable.read 0 .little PointerTable.defaultAlignment).Reads buffer place table behind ∧
      ∃ start ∈ table.offsets, Entry.RunsOut buffer start fault

theorem read_refusesOnly {buffer : Buffer} :
    read.RefusesOnly buffer fun fault => fault.IsFormat ∨ RunsOut buffer fault := by
  refine ((PointerTable.read_refusesOnly _ _).mono fun _ => Or.inl).bind_of_reads
    fun place table behind held => ?_
  have entry (start : Int) (known : start ∈ table.offsets) (fault : Fault)
      (cause : fault.IsFormat ∨ Entry.RunsOut buffer start fault) :
      fault.IsFormat ∨ RunsOut buffer fault :=
    cause.imp_right fun deep => ⟨place, table, behind, held, start, known, deep⟩
  dsimp only
  split
  next => exact Reader.refusesOnly_refuse_bind (Or.inl rfl)
  next slots =>
    refine Reader.refusesOnly_position.bind fun _ => ?_
    refine ((Reader.seek_refusesOnly _).mono fun _ => Or.inl).bind fun _ => ?_
    refine ((Reader.field_refusesOnly _ _).mono fun _ => Or.inl).bind fun audioStart => ?_
    have player : table.offsets.getD 0 0 ∈ table.offsets := by
      have some : 0 < table.offsets.length := by omega
      rw [List.getD_eq_getElem?_getD, List.getElem?_eq_getElem some]
      exact List.getElem_mem some
    refine ((PlayerEntry.read_refusesOnly _ _).mono (entry _ player)).bind fun _ => ?_
    refine Reader.RefusesOnly.bind (Reader.RefusesOnly.forEach fun bound member => ?_) fun _ => ?_
    · have object := List.mem_of_mem_tail (List.dropLast_subset _ (List.of_mem_zip member).1)
      exact (ObjectEntry.read_refusesOnly _ _).mono (entry _ object)
    · refine ((Audio.read_refusesOnly _).mono fun _ => Or.inl).bind fun _ => ?_
      refine Reader.refusesOnly_size.bind fun _ => (Reader.refusesOnly_note _).bind fun _ => ?_
      exact Reader.refusesOnly_pure _

/-- Every file is decoded, or refused for a fault of the format, or one of its entries makes the
scan for the end of a sprite come to the end of the file. -/
theorem decode_or_isFormat_or_runsOut (data : Bytes) :
    (∃ binary, decode data = .ok binary) ∨
      ∃ fault, decode data = .error fault ∧ (fault.IsFormat ∨ RunsOut data.toArray fault) := by
  obtain ⟨binary, _, done⟩ | ⟨fault, stop, refused⟩ := Reader.reads_or_refuses read data.toArray 0
  · exact Or.inl ⟨binary, done.1⟩
  · exact Or.inr ⟨fault, refused.1, read_refusesOnly 0 fault stop refused⟩

/-- A file with one sprite, cut behind the header of the sprite. -/
def headless : Bytes :=
  [0x10, 0, 0, 0, 0xA0, 0x0A, 0, 0] ++ Bytes.filled 0xFF 8 ++
    [0x10, 0, 0, 0, 0x30, 0, 0, 0, 0x70, 0, 0, 0, 0x70, 0x0A, 0, 0] ++ Bytes.filled 0xFF 32 ++
    [0x10, 0, 0, 0] ++ Bytes.filled 0xFF 12 ++ Bytes.filled 0 16

theorem decode_headless : decode headless = .error (.shortBuffer 4) :=
  rfl

theorem not_forall_isFormat :
    ¬ ∀ data, (∃ binary, decode data = .ok binary) ∨
      ∃ fault, decode data = .error fault ∧ fault.IsFormat := by
  intro every
  obtain ⟨binary, read⟩ | ⟨fault, refused, known⟩ := every headless
  · rw [decode_headless] at read
    cases read
  · rw [decode_headless] at refused
    obtain rfl := Except.error.inj refused
    cases known

end ObjectBinary

end FighterData
