import FighterData.Proofs.EntryArray.Pieces
import FighterData.Proofs.Script.Writing

/-! Records that are written as they are read. An encoder is faithful to a reader when it takes the
values that some bytes are read as, and no others, and when its bytes are read as the same value
wherever they stand. Cells, tuning values and instructions are faithful. The two lists of a palette
are written as one, and only their joint length is checked: what one list has too much of is read as
part of the other. -/
namespace FighterData

namespace Reader

variable {α : Type} {reader : Reader α} {encode : α → Except Fault Bytes} {a b : α} {buffer : Buffer}
  {start stop last : Nat}

/-- Some bytes are read as this value. -/
def Represents (reader : Reader α) (a : α) : Prop :=
  ∃ buffer start stop, reader.Reads buffer start a stop

/-- Wherever the bytes stand, they are read as this value, and the read stops right behind them. -/
def ReadsBack (reader : Reader α) (data : Bytes) (a : α) : Prop :=
  ∀ before behind : Bytes, reader.Reads (before ++ data ++ behind).toArray before.length a
    (before.length + data.length)

/-- The value is encoded if it can be read, and then it is what its bytes are read as. -/
structure Faithful (reader : Reader α) (encode : α → Except Fault Bytes) (a : α) : Prop where
  encodes_iff : (∃ data, encode a = .ok data) ↔ reader.Represents a
  readsBack : ∀ data, encode a = .ok data → reader.ReadsBack data a

theorem Reads.unique (first : reader.Reads buffer start a stop)
    (second : reader.Reads buffer start b last) : a = b :=
  Except.ok.inj (first.1.symm.trans second.1)

theorem readsBack_of_carries {data : Bytes}
    (reads : ∀ {buffer start stop}, Buffer.Carries buffer start stop data →
      reader.Reads buffer start a stop) : reader.ReadsBack data a :=
  fun before behind => reads (Buffer.carries_middle before data behind)

theorem ReadsBack.unique {data : Bytes} (first : reader.ReadsBack data a)
    (second : reader.ReadsBack data b) : a = b :=
  (first [] []).unique (second [] [])

theorem ReadsBack.represents {data : Bytes} (reads : reader.ReadsBack data a) :
    reader.Represents a :=
  ⟨_, _, _, reads [] []⟩

theorem faithful_of_readsBack (reads : ∀ data, encode a = .ok data → reader.ReadsBack data a)
    (takes : reader.Represents a → ∃ data, encode a = .ok data) : reader.Faithful encode a where
  encodes_iff := ⟨fun ⟨data, encoded⟩ => (reads data encoded).represents, takes⟩
  readsBack := reads

end Reader

theorem Cell.faithful (cell : Cell) : Cell.read.Faithful Cell.encode cell := by
  refine Reader.faithful_of_readsBack ?_ ?_
  · intro data encoded
    obtain ⟨fits, rfl⟩ := encode_eq_ok_iff.mp encoded
    let piece : { cell : Cell // cell.fits = true } := ⟨cell, fits⟩
    exact Reader.readsBack_of_carries fun carried => readsPieces.mpr ⟨piece, rfl, carried⟩
  · intro ⟨_, _, _, read⟩
    obtain ⟨piece, rfl, _⟩ := readsPieces.mp read
    exact ⟨_, encode_eq_ok_iff.mpr ⟨piece.property, rfl⟩⟩

theorem PlayData.encode_eq_ok_iff {data : PlayData} {encoded : Bytes} :
    data.encode = .ok encoded ↔
      layout.holds data.values = true ∧ encoded = magic ++ layout.spell data.values := by
  simp only [encode, bind_eq_ok_iff, Layout.encode_eq_ok_iff, exists_made_iff, pure, Except.pure,
    Except.ok.injEq]
  rw [@eq_comm _ encoded]

theorem PlayData.faithful (data : PlayData) : PlayData.read.Faithful PlayData.encode data := by
  refine Reader.faithful_of_readsBack ?_ ?_
  · intro encoded written
    obtain ⟨fits, rfl⟩ := encode_eq_ok_iff.mp written
    exact Reader.readsBack_of_carries fun carried => reads_iff.mpr ⟨fits, carried⟩
  · intro ⟨_, _, _, read⟩
    exact ⟨_, encode_eq_ok_iff.mpr ⟨(reads_iff.mp read).1, rfl⟩⟩

/-- Reserved slots are written as zero and read as anything, so the bytes of an instruction are not
the only ones that are read as it. -/
theorem Instruction.faithful (instruction : Instruction) :
    Instruction.read.Faithful Instruction.encode instruction := by
  refine Reader.faithful_of_readsBack ?_ ?_
  · intro data encoded
    obtain ⟨fits, rfl⟩ := encode_eq_ok_iff.mp encoded
    have value := InstructionPiece.value_ofFits instruction fits
    have bytes := (InstructionPiece.plain_ofFits instruction fits).bytes_eq
    have same : (InstructionPiece.ofFits instruction fits).instruction = instruction := value
    rw [same] at bytes
    rw [bytes]
    exact Reader.readsBack_of_carries fun carried => readsPieces.mpr ⟨_, value, carried⟩
  · intro ⟨_, _, _, read⟩
    obtain ⟨piece, rfl, _⟩ := readsPieces.mp read
    exact ⟨_, encode_eq_ok_iff.mpr ⟨piece.fits_instruction, rfl⟩⟩

namespace Palette

variable {palette : Palette} {data : Bytes}

/-- The palette with the same numbers, of which the first eight are the unknown words. -/
def resplit (palette : Palette) : Palette where
  unknown := (palette.unknown ++ palette.colors).take 8
  colors := (palette.unknown ++ palette.colors).drop 8

theorem encode_eq_ok_iff :
    palette.encode = .ok data ↔
      layout.holds (palette.unknown ++ palette.colors) = true ∧ data = palette.bytes :=
  Layout.encode_eq_ok_iff

theorem bytes_resplit (palette : Palette) : palette.resplit.bytes = palette.bytes :=
  congrArg layout.spell (List.take_append_drop 8 (palette.unknown ++ palette.colors))

theorem resplit_eq_iff (encoded : palette.encode = .ok data) :
    palette.resplit = palette ↔ palette.unknown.length = 8 := by
  have joint := Layout.length_of_holds (encode_eq_ok_iff.mp encoded).1
  have enough : 8 ≤ (palette.unknown ++ palette.colors).length := by
    rw [joint]
    decide +kernel
  constructor
  · intro same
    rw [← same, resplit, List.length_take, Nat.min_eq_left enough]
  · intro eight
    have front : (palette.unknown ++ palette.colors).take 8 = palette.unknown :=
      List.take_left' eight
    have back : (palette.unknown ++ palette.colors).drop 8 = palette.colors :=
      List.drop_left' eight
    rw [resplit, front, back]

theorem fits_resplit (encoded : palette.encode = .ok data) : palette.resplit.fits = true := by
  have holds := (encode_eq_ok_iff.mp encoded).1
  have joint := Layout.length_of_holds holds
  have eight : palette.resplit.unknown.length = 8 := by
    rw [resplit, List.length_take, joint]
    decide +kernel
  have same : palette.resplit.unknown ++ palette.resplit.colors =
      palette.unknown ++ palette.colors := List.take_append_drop _ _
  simp [fits, eight, same, holds]

/-- What is written for a palette is read as the palette with the first eight numbers in front. -/
theorem readsBack_resplit (encoded : palette.encode = .ok data) :
    Palette.read.ReadsBack data palette.resplit := by
  let piece : { palette : Palette // palette.fits = true } := ⟨_, fits_resplit encoded⟩
  obtain ⟨_, rfl⟩ := encode_eq_ok_iff.mp encoded
  rw [← bytes_resplit]
  exact Reader.readsBack_of_carries fun carried => readsPieces.mpr ⟨piece, rfl, carried⟩

/-- A palette with another number of unknown words is faithful only by being refused. -/
theorem faithful_iff :
    Palette.read.Faithful Palette.encode palette ↔
      ∀ data, palette.encode = .ok data → palette.unknown.length = 8 := by
  constructor
  · intro faithful data encoded
    have same := (readsBack_resplit encoded).unique (faithful.readsBack data encoded)
    exact (resplit_eq_iff encoded).mp same
  · intro counted
    refine Reader.faithful_of_readsBack ?_ ?_
    · intro data encoded
      have reads := readsBack_resplit encoded
      rwa [(resplit_eq_iff encoded).mpr (counted data encoded)] at reads
    · intro ⟨_, _, _, read⟩
      obtain ⟨piece, rfl, _⟩ := readsPieces.mp read
      exact ⟨_, encode_of_fits piece.property⟩

end Palette

/-- Cells, tuning values and instructions are encoded if they can be read, and are read again from
their bytes. So are palettes, but for those that are encoded without eight unknown words: what is
encoded for a palette is read as the resplit one. -/
theorem records_faithful (cell : Cell) (playData : PlayData) (instruction : Instruction)
    (palette : Palette) :
    Cell.read.Faithful Cell.encode cell ∧
      PlayData.read.Faithful PlayData.encode playData ∧
      Instruction.read.Faithful Instruction.encode instruction ∧
      (Palette.read.Faithful Palette.encode palette ↔
        ∀ data, palette.encode = .ok data → palette.unknown.length = 8) ∧
      ∀ data, palette.encode = .ok data → Palette.read.ReadsBack data palette.resplit :=
  ⟨cell.faithful, playData.faithful, instruction.faithful, Palette.faithful_iff,
    fun _ encoded => Palette.readsBack_resplit encoded⟩

namespace Palette

/-- One unknown word too few, and one color too many. -/
def uneven : Palette where
  unknown := List.replicate 7 0
  colors := List.replicate 257 0

theorem encode_uneven : uneven.encode = .ok uneven.bytes :=
  Layout.encode_of_holds (by decide +kernel)

/-- A palette can be encoded to bytes that are read as another one. -/
theorem not_forall_readsBack :
    ¬ ∀ (palette : Palette) (data : Bytes), palette.encode = .ok data →
      Palette.read.ReadsBack data palette := by
  intro back
  have same := (readsBack_resplit encode_uneven).unique (back uneven _ encode_uneven)
  have seven : uneven.unknown.length = 7 := rfl
  have eight := (resplit_eq_iff encode_uneven).mp same
  omega

end Palette

/-- The uneven palette is not faithful, beside the empty cell, the default tuning values and an
instruction, which are. -/
theorem records_faithful_uneven :
    Cell.read.Faithful Cell.encode {} ∧ PlayData.read.Faithful PlayData.encode {} ∧
      Instruction.read.Faithful Instruction.encode (.scriptEnd 0 0) ∧
      ¬ Palette.read.Faithful Palette.encode Palette.uneven ∧
      Palette.read.ReadsBack Palette.uneven.bytes Palette.uneven.resplit := by
  obtain ⟨cell, playData, instruction, exact, back⟩ :=
    records_faithful {} {} (.scriptEnd 0 0) Palette.uneven
  refine ⟨cell, playData, instruction, ?_, back _ Palette.encode_uneven⟩
  intro faithful
  have seven : Palette.uneven.unknown.length = 7 := rfl
  have eight := exact.mp faithful _ Palette.encode_uneven
  omega

end FighterData
