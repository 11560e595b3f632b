import FighterData.Proofs.EntryArray.Pieces
import FighterData.Proofs.EntryArray.Writing

/-! Encoding arrays of cells and of palettes. Both are arrays whose entries spell themselves; a cell
is padded to its alignment, and a palette is not padded at all, which is a step of one byte. -/
namespace FighterData

namespace EntryArray

variable {α : Type}

theorem AliasesFit.of_map {β : Type} {f : β → α} {entries : List β} {aliases : List Int}
    (injective : ∀ {a b : β}, f a = f b → a = b) (fits : AliasesFit (entries.map f) aliases) :
    AliasesFit entries aliases where
  increasing := fits.increasing
  shared := by
    intro slot member
    obtain ⟨lower, upper, same⟩ := fits.shared slot member
    rw [List.length_map] at upper
    rw [List.getElem?_map, List.getElem?_map] at same
    exact ⟨lower, upper, Option.map_injective (fun _ _ => injective) same⟩

section Fitting

variable {fits : α → Bool} [Piece { a : α // fits a = true } α]
  (value_eq : ∀ piece : { a : α // fits a = true }, Piece.value piece = piece.val)

include value_eq

theorem value_pieces_eq (pieces : List { a : α // fits a = true }) :
    Piece.value pieces = pieces.map Subtype.val :=
  List.map_congr_left fun piece _ => value_eq piece

theorem exists_pieces {values : List α} (each : ∀ a ∈ values, fits a = true) :
    ∃ pieces : List { a : α // fits a = true }, Piece.value pieces = values := by
  refine ⟨values.attachWith _ each, ?_⟩
  rw [value_pieces_eq value_eq]
  exact List.attachWith_map_subtype_val each

/-- The values of a plan fit, and so do its aliases. -/
theorem Plan.fits_values (plan : Plan { a : α // fits a = true }) :
    ∀ a ∈ plan.values, fits a = true := by
  intro a member
  obtain ⟨run, _, inside⟩ := List.mem_flatMap.mp member
  rw [List.eq_of_mem_replicate inside, value_eq]
  exact run.piece.property

end Fitting

theorem Plan.aliasesFit {π : Type} [Piece π α] (plan : Plan π) :
    AliasesFit plan.values plan.aliases :=
  (Run.slotsFit 0 plan.runs).aliasesFit

end EntryArray

namespace Cell

/-- The entries of an array of cells. -/
def entries (cells : List Cell) : List Bytes :=
  EntryArray.padded bytes alignment cells

theorem encodeArray_eq_ok_iff {cells : List Cell} {aliases : List Int} {data : Bytes}
    (fits : ∀ cell ∈ cells, cell.fits = true) (shared : EntryArray.AliasesFit cells aliases) :
    encodeArray cells aliases = .ok data ↔
      (∀ offset ∈ (PointerTable.layOut (entries cells) aliases).1,
        Width.u32.holds offset = true) ∧
      data = EntryArray.written (entries cells) aliases := by
  have encoded : cells.mapM encode = .ok (cells.map bytes) :=
    mapM_eq_ok_of_forall fun cell member => encode_eq_ok_iff.mpr ⟨fits cell member, rfl⟩
  have padded : (cells.map bytes).map (Alignment.pad · alignment) = entries cells := by
    rw [List.map_map]
    rfl
  have checked : PointerTable.checkAliases (entries cells) aliases = .ok () := shared.checked _
  have step : encodeArray cells aliases = EntryArray.join (entries cells) aliases := by
    rw [encodeArray, encoded, ← padded]
    rfl
  rw [step, EntryArray.join_eq_ok_iff]
  simp only [checked, true_and]

theorem value_piece (piece : { cell : Cell // cell.fits = true }) :
    Piece.value piece = piece.val := rfl

theorem bytes_piece (piece : { cell : Cell // cell.fits = true }) :
    bytes (Piece.value piece) = Piece.bytes piece := rfl

theorem exists_canonical {cells : List Cell} {aliases : List Int}
    (fits : ∀ cell ∈ cells, cell.fits = true) (shared : EntryArray.AliasesFit cells aliases)
    (short : (EntryArray.written (entries cells) aliases).length < PointerTable.sentinel) :
    ∃ plan : EntryArray.Plan { cell : Cell // cell.fits = true }, plan.Canonical alignment ∧
      Piece.value plan = (cells, aliases) := by
  obtain ⟨pieces, rfl⟩ := EntryArray.exists_pieces value_piece fits
  rw [EntryArray.value_pieces_eq value_piece] at shared
  exact EntryArray.exists_canonical bytes_piece (by decide) (shared.of_map Subtype.ext) short

end Cell

namespace Palette

/-- The entries of an array of palettes. -/
def entries (palettes : List Palette) : List Bytes :=
  EntryArray.padded bytes 1 palettes

theorem entries_eq (palettes : List Palette) : entries palettes = palettes.map bytes := by
  refine List.map_congr_left fun palette _ => ?_
  have nothing : Alignment.gapNat palette.bytes.length 1 = 0 := Nat.mod_one _
  rw [Alignment.pad, nothing]
  exact List.append_nil _

theorem encodeArray_eq_ok_iff {palettes : List Palette} {aliases : List Int} {data : Bytes}
    (fits : ∀ palette ∈ palettes, palette.fits = true)
    (shared : EntryArray.AliasesFit palettes aliases) :
    encodeArray palettes aliases = .ok data ↔
      (∀ offset ∈ (PointerTable.layOut (entries palettes) aliases).1,
        Width.u32.holds offset = true) ∧
      data = EntryArray.written (entries palettes) aliases := by
  have encoded : palettes.mapM encode = .ok (palettes.map bytes) :=
    mapM_eq_ok_of_forall fun palette member => encode_of_fits (fits palette member)
  have checked : PointerTable.checkAliases (entries palettes) aliases = .ok () := shared.checked _
  have step : encodeArray palettes aliases = EntryArray.join (entries palettes) aliases := by
    rw [encodeArray, encoded, entries_eq]
    rfl
  rw [step, EntryArray.join_eq_ok_iff]
  simp only [checked, true_and]

theorem value_piece (piece : { palette : Palette // palette.fits = true }) :
    Piece.value piece = piece.val := rfl

theorem bytes_piece (piece : { palette : Palette // palette.fits = true }) :
    bytes (Piece.value piece) = Piece.bytes piece := rfl

theorem exists_canonical {palettes : List Palette} {aliases : List Int}
    (fits : ∀ palette ∈ palettes, palette.fits = true)
    (shared : EntryArray.AliasesFit palettes aliases)
    (short : (EntryArray.written (entries palettes) aliases).length < PointerTable.sentinel) :
    ∃ plan : EntryArray.Plan { palette : Palette // palette.fits = true }, plan.Canonical 1 ∧
      Piece.value plan = (palettes, aliases) := by
  obtain ⟨pieces, rfl⟩ := EntryArray.exists_pieces value_piece fits
  rw [EntryArray.value_pieces_eq value_piece] at shared
  exact EntryArray.exists_canonical bytes_piece (by decide) (shared.of_map Subtype.ext) short

end Palette

end FighterData
