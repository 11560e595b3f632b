import FighterData.Cell
import FighterData.Palette
import FighterData.Proofs.Piece

/-! The entries of arrays as they stand in a file: cells and palettes whose numbers fit. Such an
entry spells itself, nothing about it is lost when it is read. -/
namespace FighterData

namespace Box

def fits (box : Box) : Bool :=
  layout.holds box.fields

def bytes (box : Box) : Bytes :=
  layout.spell box.fields

theorem fields_ofFields {values : List Int} (exact : values.length = layout.length) :
    (ofFields values).fields = values :=
  match values, exact with
  | [_, _, _, _, _], _ => rfl

theorem encode_eq_ok_iff {box : Box} {data : Bytes} :
    box.encode = .ok data ↔ box.fits = true ∧ data = box.bytes :=
  Layout.encode_eq_ok_iff

instance : Piece { box : Box // box.fits = true } Box where
  value := Subtype.val
  bytes piece := piece.val.bytes

theorem bytes_pieces (each : List { box : Box // box.fits = true }) :
    Piece.bytes each = (Piece.value each).flatMap Box.bytes := by
  simp [Piece.bytes, Piece.value]

theorem readsPieces : Box.read.ReadsPieces { box : Box // box.fits = true } := by
  intro buffer start stop box
  simp only [read, Reader.reads_bind_iff, Reader.reads_fields_iff_spell, Reader.reads_pure_iff]
  constructor
  · intro read
    obtain ⟨values, _, ⟨fits, carried⟩, rfl, rfl⟩ := read
    have same := fields_ofFields (Layout.length_of_holds fits)
    rw [← same] at fits carried
    exact ⟨⟨ofFields values, fits⟩, rfl, carried⟩
  · intro found
    obtain ⟨piece, rfl, carried⟩ := found
    exact ⟨piece.val.fields, stop, ⟨piece.property, carried⟩, rfl, rfl⟩

end Box

namespace SpriteInfo

def fits (info : SpriteInfo) : Bool :=
  layout.holds info.fields

def bytes (info : SpriteInfo) : Bytes :=
  layout.spell info.fields

theorem fields_ofFields {values : List Int} (exact : values.length = layout.length) :
    (ofFields values).fields = values :=
  match values, exact with
  | [_, _, _, _], _ => rfl

theorem reads_iff {buffer : Buffer} {start stop : Nat} {info : SpriteInfo} :
    SpriteInfo.read.Reads buffer start info stop ↔
      info.fits = true ∧ buffer.Carries start stop info.bytes := by
  simp only [read, Reader.reads_bind_iff, Reader.reads_fields_iff_spell, Reader.reads_pure_iff]
  constructor
  · intro read
    obtain ⟨values, _, ⟨fits, carried⟩, rfl, rfl⟩ := read
    have same := fields_ofFields (Layout.length_of_holds fits)
    rw [← same] at fits carried
    exact ⟨fits, carried⟩
  · intro found
    exact ⟨info.fields, stop, found, rfl, rfl⟩

end SpriteInfo

namespace Cell

/-- Every number of the cell fits its field, the number of boxes included. -/
def fits (cell : Cell) : Bool :=
  Width.u32.holds cell.boxes.length && cell.boxes.all Box.fits && cell.info.fits

def bytes (cell : Cell) : Bytes :=
  Width.u32.encode cell.boxes.length ++ cell.boxes.flatMap Box.bytes ++ cell.info.bytes

theorem encode_eq_ok_iff {cell : Cell} {data : Bytes} :
    cell.encode = .ok data ↔ cell.fits = true ∧ data = cell.bytes := by
  have boxes (encoded : List Bytes) : cell.boxes.mapM Box.encode = .ok encoded ↔
      (∀ box ∈ cell.boxes, box.fits = true) ∧ encoded = cell.boxes.map Box.bytes :=
    mapM_eq_ok_iff fun _ _ _ => Box.encode_eq_ok_iff
  have info (encoded : Bytes) : cell.info.encode = .ok encoded ↔
      cell.info.fits = true ∧ encoded = cell.info.bytes :=
    Layout.encode_eq_ok_iff
  simp only [encode, bind_eq_ok_iff, encodeField_eq_ok_iff, boxes, info, exists_made_iff, pure,
    Except.pure, Except.ok.injEq, fits, Bool.and_eq_true, List.all_eq_true]
  rw [and_assoc, and_assoc, @eq_comm _ data]
  rfl

theorem length_bytes_pos (cell : Cell) : 0 < cell.bytes.length := by
  simp only [bytes, List.length_append, Width.length_encode, Width.size]
  omega

instance : Piece { cell : Cell // cell.fits = true } Cell where
  value := Subtype.val
  bytes piece := piece.val.bytes

theorem readsPieces : Cell.read.ReadsPieces { cell : Cell // cell.fits = true } := by
  intro buffer start stop cell
  simp only [read, Reader.reads_bind_iff, Reader.reads_field_iff, Reader.reads_pure_iff,
    SpriteInfo.reads_iff, encodeField_eq_ok_iff]
  constructor
  · intro read
    obtain ⟨count, middle, ⟨_, ⟨counted, rfl⟩, first⟩, boxes, behind, each, info, _, ⟨last, third⟩,
      rfl, rfl⟩ := read
    obtain ⟨number, rfl, _⟩ := Width.holds_u32_iff.mp counted
    obtain ⟨pieces, length, rfl, second⟩ := (Box.readsPieces.times first.stop_le).mp each
    have size : (Piece.value pieces).length = number := by
      simpa [Piece.value] using length
    have fits : Cell.fits ⟨Piece.value pieces, info⟩ = true := by
      simp only [Cell.fits, Bool.and_eq_true, List.all_eq_true, size]
      refine ⟨⟨counted, ?_⟩, last⟩
      intro box member
      obtain ⟨piece, _, rfl⟩ := List.mem_map.mp member
      exact piece.property
    refine ⟨⟨_, fits⟩, rfl, ?_⟩
    rw [Box.bytes_pieces] at second
    rw [← size] at first
    exact (first.append second).append third
  · intro found
    obtain ⟨⟨⟨boxes, info⟩, fits⟩, rfl, carried⟩ := found
    simp only [Cell.fits, Bool.and_eq_true, List.all_eq_true] at fits
    obtain ⟨behind, front, third⟩ := Buffer.carries_append_iff.mp carried
    obtain ⟨middle, first, second⟩ := Buffer.carries_append_iff.mp front
    have pieces : ∃ each : List { box : Box // box.fits = true }, Piece.value each = boxes :=
      ⟨boxes.attachWith _ fits.1.2, List.attachWith_map_subtype_val fits.1.2⟩
    obtain ⟨each, rfl⟩ := pieces
    refine ⟨_, middle, ⟨_, ⟨fits.1.1, rfl⟩, first⟩, _, behind, ?_, info, stop, ⟨fits.2, third⟩, rfl,
      rfl⟩
    refine (Box.readsPieces.times first.stop_le).mpr ⟨each, ?_, rfl, ?_⟩
    · simp [Piece.value]
    · rw [Box.bytes_pieces]
      exact second

end Cell

namespace Palette

/-- Eight unknown words and 256 colors, and every number fits its field. -/
def fits (palette : Palette) : Bool :=
  palette.unknown.length == 8 && layout.holds (palette.unknown ++ palette.colors)

def bytes (palette : Palette) : Bytes :=
  layout.spell (palette.unknown ++ palette.colors)

theorem encode_of_fits {palette : Palette} (fitting : palette.fits = true) :
    palette.encode = .ok palette.bytes := by
  simp only [fits, Bool.and_eq_true] at fitting
  exact Layout.encode_of_holds fitting.2

theorem length_bytes {palette : Palette} (fitting : palette.fits = true) :
    palette.bytes.length = 1040 := by
  simp only [fits, Bool.and_eq_true] at fitting
  have size : layout.size = 1040 := by decide +kernel
  rw [← size]
  exact Layout.length_spell fitting.2

instance : Piece { palette : Palette // palette.fits = true } Palette where
  value := Subtype.val
  bytes piece := piece.val.bytes

theorem readsPieces : Palette.read.ReadsPieces { palette : Palette // palette.fits = true } := by
  intro buffer start stop palette
  simp only [read, Reader.reads_bind_iff, Reader.reads_fields_iff_spell, Reader.reads_pure_iff]
  constructor
  · intro read
    obtain ⟨values, _, ⟨fits, carried⟩, rfl, rfl⟩ := read
    have length : values.length = layout.length := Layout.length_of_holds fits
    have joined : values.take 8 ++ values.drop 8 = values := List.take_append_drop 8 values
    have enough : 8 ≤ values.length := by
      rw [length]
      simp [layout]
    have fitting : Palette.fits ⟨values.take 8, values.drop 8⟩ = true := by
      simp only [Palette.fits, joined, Bool.and_eq_true, beq_iff_eq, List.length_take]
      exact ⟨by omega, fits⟩
    refine ⟨⟨_, fitting⟩, rfl, ?_⟩
    rw [← joined] at carried
    exact carried
  · intro found
    obtain ⟨⟨⟨unknown, colors⟩, fitting⟩, rfl, carried⟩ := found
    simp only [Palette.fits, Bool.and_eq_true, beq_iff_eq] at fitting
    refine ⟨unknown ++ colors, stop, ⟨fitting.2, carried⟩, ?_, rfl⟩
    have front : (unknown ++ colors).take 8 = unknown := List.take_left' fitting.1
    have back : (unknown ++ colors).drop 8 = colors := List.drop_left' fitting.1
    rw [front, back]
    rfl

end Palette

end FighterData
