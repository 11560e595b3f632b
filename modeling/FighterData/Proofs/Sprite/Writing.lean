import FighterData.Proofs.EntryArray.Writing
import FighterData.Proofs.Sprite.Plan

/-! Encoding sprites. An array can be encoded and read again if its sprites make a row: all but the
last have no terminator, and the scan of the last payload stops at its terminator. -/
namespace FighterData.Sprite

def bytes (sprite : Sprite) : Bytes :=
  headerLayout.spell sprite.header ++ sprite.payload ++ sprite.terminator

def lastBytes (sprite : Sprite) : Bytes :=
  headerLayout.spell sprite.header ++ sprite.payload
    ++ if sprite.terminator.isEmpty then defaultTerminator else sprite.terminator

def arrayBlocks : List Sprite → List Bytes
  | [] => []
  | [last] => [last.lastBytes]
  | sprite :: rest => sprite.bytes :: arrayBlocks rest

theorem arrayBlocks_concat (front : List Sprite) (last : Sprite) :
    arrayBlocks (front ++ [last]) = front.map bytes ++ [last.lastBytes] := by
  induction front with
  | nil => rfl
  | cons sprite rest ih =>
      have step : arrayBlocks (sprite :: (rest ++ [last])) =
          sprite.bytes :: arrayBlocks (rest ++ [last]) := by
        cases rest <;> rfl
      rw [List.cons_append, step, ih]
      rfl

theorem encodeEach_eq_ok_iff {sprites : List Sprite} {blocks : List Bytes} :
    encodeEach sprites = .ok blocks ↔
      (∀ sprite ∈ sprites, headerLayout.holds sprite.header = true) ∧
        blocks = arrayBlocks sprites := by
  have each (sprite : Sprite) (data : Bytes) : sprite.encode = .ok data ↔
      headerLayout.holds sprite.header = true ∧ data = sprite.bytes := by
    simp only [encode, bind_eq_ok_iff, Layout.encode_eq_ok_iff, exists_made_iff, pure,
      Except.pure, Except.ok.injEq]
    rw [@eq_comm _ data, bytes]
  have final (sprite : Sprite) (data : Bytes) : sprite.encodeLast = .ok data ↔
      headerLayout.holds sprite.header = true ∧ data = sprite.lastBytes := by
    simp only [encodeLast, bind_eq_ok_iff, Layout.encode_eq_ok_iff, exists_made_iff, pure,
      Except.pure, Except.ok.injEq]
    rw [@eq_comm _ data, lastBytes]
  induction sprites generalizing blocks with
  | nil =>
      simp only [encodeEach, arrayBlocks, pure, Except.pure, Except.ok.injEq, List.not_mem_nil,
        false_implies, implies_true, true_and]
      exact eq_comm
  | cons sprite rest ih =>
      cases rest with
      | nil =>
          simp only [encodeEach, bind_eq_ok_iff, final, exists_made_iff, pure, Except.pure,
            Except.ok.injEq, List.mem_singleton, forall_eq, arrayBlocks]
          rw [@eq_comm _ blocks]
      | cons next others =>
          have step : encodeEach (sprite :: next :: others) = (do
              let encoded ← sprite.encode
              let others ← encodeEach (next :: others)
              return encoded :: others) := rfl
          rw [step, List.forall_mem_cons]
          simp only [bind_eq_ok_iff, each, ih, exists_made_iff, pure, Except.pure,
            Except.ok.injEq]
          rw [and_assoc, @eq_comm _ blocks]
          rfl

theorem encodeArray_eq_ok_iff {sprites : List Sprite} {data : Bytes} :
    encodeArray sprites = .ok data ↔
      (∀ sprite ∈ sprites, headerLayout.holds sprite.header = true) ∧
      (∀ offset ∈ (PointerTable.layOut (arrayBlocks sprites) []).1,
        Width.u32.holds offset = true) ∧
      data = EntryArray.written (arrayBlocks sprites) [] := by
  have unshared (blocks : List Bytes) : PointerTable.checkAliases blocks [] = .ok () := by
    rw [PointerTable.checkAliases_eq_ok_iff]
    simp
  simp only [encodeArray, bind_eq_ok_iff, encodeEach_eq_ok_iff, EntryArray.join_eq_ok_iff,
    exists_made_iff, unshared, true_and]

/-- The sprites of an array that can be encoded and read again. -/
structure RowFits (sprites : List Sprite) : Prop where
  headers : ∀ sprite ∈ sprites, headerLayout.holds sprite.header = true
  bounded : ∀ sprite ∈ sprites.dropLast, sprite.terminator = []
  last : ∀ sprite ∈ sprites.getLast?, Ends sprite.payload sprite.terminator

namespace Row

theorem fits (row : Row) : RowFits row.sprites := by
  cases row with
  | empty => exact ⟨by simp [sprites], by simp [sprites], by simp [sprites]⟩
  | row bounded last =>
      refine ⟨?_, ?_, ?_⟩
      · intro sprite member
        cases List.mem_append.mp member with
        | inl inside =>
            obtain ⟨piece, _, rfl⟩ := List.mem_map.mp inside
            exact piece.fits
        | inr ending =>
            rw [List.mem_singleton.mp ending]
            exact last.fits
      · intro sprite member
        rw [sprites, List.dropLast_concat] at member
        obtain ⟨piece, _, rfl⟩ := List.mem_map.mp member
        rfl
      · intro sprite ending
        rw [sprites, List.getLast?_concat] at ending
        obtain rfl := Option.some.inj ending
        exact last.ends

theorem exists_of_fits {sprites : List Sprite} (fits : RowFits sprites) :
    ∃ row : Row, row.sprites = sprites := by
  cases List.eq_nil_or_concat sprites with
  | inl none => exact ⟨empty, none.symm⟩
  | inr found =>
      obtain ⟨front, last, same⟩ := found
      rw [List.concat_eq_append] at same
      rw [same] at fits
      have plain := fits.bounded
      rw [List.dropLast_concat] at plain
      have ends := fits.last last (by simp)
      have held := fits.headers last (by simp)
      have pieces : ∀ each : List Sprite, (∀ sprite ∈ each, sprite ∈ front) →
          ∃ bounded : List BoundedPiece, Piece.value bounded = each := by
        intro each inside
        induction each with
        | nil => exact ⟨[], rfl⟩
        | cons sprite rest ih =>
            have member := inside sprite (by simp)
            obtain ⟨bounded, rfl⟩ := ih fun other deeper => inside other (by simp [deeper])
            have closed := plain sprite member
            have header := fits.headers sprite (by simp [member])
            refine ⟨⟨sprite.header, header, sprite.payload⟩ :: bounded, ?_⟩
            rw [Piece.value_cons]
            congr 1
            obtain ⟨words, payload, terminator⟩ := sprite
            simp only at closed
            rw [closed]
            rfl
      obtain ⟨bounded, rfl⟩ := pieces front fun _ member => member
      exact ⟨row bounded ⟨last.header, held, last.payload, last.terminator, ends⟩, same.symm⟩

theorem arrayBlocks_eq (row : Row) : arrayBlocks row.sprites = row.blocks := by
  cases row with
  | empty => rfl
  | row bounded last =>
      have closed : last.terminator.isEmpty = false := by
        cases shape : last.terminator with
        | nil => exact absurd shape last.ends.terminator_ne_nil
        | cons first rest => rfl
      rw [sprites, arrayBlocks_concat, blocks]
      congr 1
      · simp [Piece.value, Piece.bytes, Sprite.bytes]
      · simp [Piece.value, Piece.bytes, Sprite.lastBytes, closed]

end Row

namespace Plan

/-- The bytes of the array without the zeros that close its block. -/
def contentLength (plan : Plan) : Nat :=
  plan.tableSize + plan.row.blocks.flatten.length + plan.before + plan.padding

theorem length_bytes (plan : Plan) :
    (Piece.bytes plan).length = plan.contentLength + plan.after := by
  show plan.bytes.length = _
  simp only [bytes, contentLength, offsets, tableSize, List.length_append,
    PointerTable.length_spell, Entry.length_pointersFrom, Bytes.length_trailer]
  omega

structure Canonical (plan : Plan) : Prop where
  table : IsLeast {total | 16 ∣ total ∧ 4 * plan.row.sprites.length < total} plan.tableSize
  trailer : plan.before = 0
  block : IsLeast {total | 16 ∣ total ∧ plan.contentLength ≤ total} (Piece.bytes plan).length

variable {plan : Plan}

theorem Canonical.padding_eq (canonical : plan.Canonical) :
    plan.padding = PointerTable.leastPadding plan.row.blocks.length := by
  have least := canonical.table
  rw [← Row.length_blocks] at least
  exact PointerTable.isLeast_padding_iff.mp least

theorem Canonical.offsets_eq (canonical : plan.Canonical) :
    (PointerTable.layOut (arrayBlocks plan.row.sprites) []).1 = plan.offsets := by
  rw [Row.arrayBlocks_eq, PointerTable.layOut_nil, offsets, tableSize, canonical.padding_eq]
  rfl

/-- The least plan is what encoding writes. -/
theorem Canonical.written_eq (canonical : plan.Canonical) :
    Alignment.pad (EntryArray.written (arrayBlocks plan.row.sprites) []) Entry.blockAlignment =
      Piece.bytes plan := by
  have after : plan.after = Alignment.gapNat (4 * plan.offsets.length + plan.padding +
      plan.row.blocks.flatten.length + plan.padding) 16 := by
    have least := canonical.block
    rw [length_bytes, Alignment.isLeast_gap_iff (by decide)] at least
    rw [least, contentLength, tableSize, canonical.trailer, offsets, Entry.length_pointersFrom]
    rfl
  have whole : EntryArray.written (arrayBlocks plan.row.sprites) [] =
      PointerTable.spell .little plan.offsets plan.padding ++
        (plan.row.blocks.flatten ++ Bytes.filled 0xFF plan.padding) := by
    rw [EntryArray.written, canonical.offsets_eq, Row.arrayBlocks_eq, PointerTable.layOut_nil,
      canonical.padding_eq]
  rw [whole, EntryArray.pad_closed after, ← canonical.trailer]
  rfl

/-- Sprites that make a row have a least plan, as long as its offsets stay below the closing
word. -/
theorem exists_canonical {sprites : List Sprite} (fits : RowFits sprites)
    (short : (EntryArray.written (arrayBlocks sprites) []).length < PointerTable.sentinel) :
    ∃ plan : Plan, plan.Canonical ∧ Piece.value plan = sprites := by
  obtain ⟨row, rfl⟩ := Row.exists_of_fits fits
  have room := PointerTable.leastPadding_bounds row.blocks.length
  rw [EntryArray.written, Row.arrayBlocks_eq, PointerTable.layOut_nil] at short
  simp only [List.length_append, PointerTable.length_spell, Entry.length_pointersFrom,
    Bytes.length_filled] at short
  have bounded : ∀ offset ∈ Entry.pointersFrom (4 * row.blocks.length +
      PointerTable.leastPadding row.blocks.length) row.blocks, PointerTable.IsOffset offset := by
    intro offset member
    have bounds := Entry.pointer_le_of_mem member
    exact ⟨by omega, by omega⟩
  let plan : Plan := {
    row := row
    padding := PointerTable.leastPadding row.blocks.length
    before := 0
    after := Alignment.gapNat (PointerTable.startOf row.blocks.length +
      row.blocks.flatten.length + 0 + PointerTable.leastPadding row.blocks.length) 16
    room := room.1
    empty := by
      intro none
      rw [none]
      rfl
    bounded := bounded }
  refine ⟨plan, ⟨?_, rfl, ?_⟩, rfl⟩
  · rw [← Row.length_blocks]
    exact PointerTable.isLeast_padding_iff.mpr rfl
  · rw [length_bytes]
    exact (Alignment.isLeast_gap_iff (by decide)).mpr rfl

end Plan

end FighterData.Sprite
