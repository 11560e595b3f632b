import FighterData.Proofs.Entry.Writing
import FighterData.Proofs.Script.Canonical

/-! The least plan of an entry. Its first block follows the header at once, its arrays are laid out
least, its script is as short as its remainder allows, and its reserved slots hold zero. Encoding
gives these bytes, and every entry that fits has such a plan. -/
namespace FighterData

namespace Entry

/-- A script block of the least size behind its script. -/
def ScriptPiece.Least {π α : Type} [Piece π α] (piece : ScriptPiece π) : Prop :=
  IsLeast {total | (Piece.bytes piece.script).length ≤ total ∧ total % 0x1000 = 0xA00}
    (Piece.bytes piece).length

theorem ScriptPiece.Least.bytes_eq {π α : Type} [Piece π α] {piece : ScriptPiece π}
    (least : piece.Least) : Piece.bytes piece = scriptBlock (Piece.bytes piece.script) := by
  have length : (Piece.bytes piece).length = (Piece.bytes piece.script).length + piece.slack := by
    show (Piece.bytes piece.script ++ Bytes.filled 0 piece.slack).length = _
    simp
  rw [Least, length, isLeast_script_iff] at least
  show Piece.bytes piece.script ++ Bytes.filled 0 piece.slack = _
  rw [least, scriptBlock]

theorem ScriptPiece.exists_least {π α : Type} [Piece π α] (script : π) :
    ∃ piece : ScriptPiece π, piece.script = script ∧ piece.Least := by
  refine ⟨⟨script, (scriptPadding (Piece.bytes script).length).toNat⟩, rfl, ?_⟩
  have least := isLeast_scriptPadding (Piece.bytes script).length
  have length : (Piece.bytes (ScriptPiece.mk script
      (scriptPadding (Piece.bytes script).length).toNat)).length =
        (Piece.bytes script).length + (scriptPadding (Piece.bytes script).length).toNat := by
    show (Piece.bytes script ++ Bytes.filled 0 _).length = _
    simp
  rw [Least, length]
  exact least

theorem length_le_of_mem {blocks : List Bytes} {block : Bytes} (member : block ∈ blocks) :
    block.length ≤ blocks.flatten.length := by
  obtain ⟨front, back, rfl⟩ := List.append_of_mem member
  simp
  omega

theorem length_le_of_pad_mem {blocks : List Bytes} {data : Bytes} {step : Nat}
    (member : Alignment.pad data step ∈ blocks) : data.length ≤ blocks.flatten.length := by
  have bound := length_le_of_mem member
  rw [Alignment.length_pad] at bound
  omega

/-- Pointers stay below the closing word with the blocks that they point at. -/
theorem holds_pointers {blocks : List Bytes} {running : Nat}
    (short : running + blocks.flatten.length < PointerTable.sentinel) :
    ∀ word ∈ pointersFrom running blocks, Width.u32.holds word = true := by
  intro word member
  have bounds := pointer_le_of_mem member
  exact PointerTable.IsOffset.holds ⟨by omega, by omega⟩

end Entry

namespace PlayerEntry.Plan

structure Canonical (plan : Plan) : Prop where
  pointer : plan.pointers.head? = some 0x10
  cells : plan.cells.Canonical Cell.alignment
  sprites : plan.sprites.Canonical
  script : plan.script.Least
  slots : plan.script.script.actions.Plain
  palettes : plan.palettes.Canonical 1

variable {plan : Plan}

theorem fits_entry (plan : Plan) : plan.entry.Fits where
  cells := plan.cells.fits_values Cell.value_piece
  cellAliases := plan.cells.aliasesFit
  sprites := plan.sprites.row.fits
  script := plan.script.script.scriptFits
  palettes := plan.palettes.fits_values Palette.value_piece
  paletteAliases := plan.palettes.aliasesFit

theorem Canonical.gap_eq (canonical : plan.Canonical) : plan.gap = 0 := by
  have pointer := Option.some.inj canonical.pointer
  have first : ((16 + plan.gap : Nat) : Int) = 0x10 := pointer
  omega

theorem Canonical.blocks_eq (canonical : plan.Canonical) : plan.entry.blocks = plan.blocks := by
  have cells := canonical.cells.written_eq Cell.bytes_piece (by decide)
  have sprites := canonical.sprites.written_eq
  have palettes := canonical.palettes.written_eq Palette.bytes_piece (by decide)
  have script : Piece.bytes plan.script = Entry.scriptBlock plan.entry.script.bytes := by
    rw [canonical.script.bytes_eq, ← PlayerScriptPiece.bytes_eq canonical.slots]
    rfl
  rw [blocks, ← cells, ← sprites, ← palettes, script]
  rfl

theorem Canonical.pointers_eq (canonical : plan.Canonical) :
    Entry.pointersFrom Entry.headerSize plan.entry.blocks = plan.pointers := by
  rw [canonical.blocks_eq, pointers, canonical.gap_eq]
  rfl

theorem Canonical.bytes_eq (canonical : plan.Canonical) : plan.entry.bytes = Piece.bytes plan := by
  rw [PlayerEntry.bytes, canonical.pointers_eq, canonical.blocks_eq]
  show _ = Entry.headerBytes plan.pointers plan.gap ++ plan.blocks.flatten
  rw [canonical.gap_eq, Entry.headerBytes]
  simp [Bytes.filled]

/-- The offsets of a plan fit as they stand in the file. -/
theorem Canonical.offsets_hold (canonical : plan.Canonical) :
    ∀ offset ∈ plan.entry.offsets, Width.u32.holds offset = true := by
  have cells := canonical.cells.offsets_eq Cell.bytes_piece (by decide)
  have sprites := canonical.sprites.offsets_eq
  have palettes := canonical.palettes.offsets_eq Palette.bytes_piece (by decide)
  have whole : plan.entry.offsets = plan.cells.offsets ++ plan.sprites.offsets ++
      plan.palettes.offsets ++ plan.pointers := by
    rw [← cells, ← sprites, ← palettes, ← canonical.pointers_eq]
    rfl
  rw [whole]
  simp only [List.forall_mem_append]
  exact ⟨⟨⟨fun offset member => (plan.cells.tableFits.bounded offset member).holds,
    fun offset member => (plan.sprites.tableFits.bounded offset member).holds⟩,
    fun offset member => (plan.palettes.tableFits.bounded offset member).holds⟩,
    (Entry.holds_header_iff rfl).mp plan.fits⟩

/-- An entry that fits has a least plan, as long as its bytes stay below the closing word. -/
theorem exists_canonical {entry : PlayerEntry} (fits : entry.Fits)
    (short : entry.bytes.length < PointerTable.sentinel) :
    ∃ plan : Plan, plan.Canonical ∧ Piece.value plan = entry := by
  have header : (Entry.headerLayout.spell
      (Entry.pointersFrom Entry.headerSize entry.blocks)).length = 16 :=
    Layout.length_spell_of_exact (Entry.length_pointersFrom _ _)
  rw [PlayerEntry.bytes, List.length_append, header] at short
  have below {block : Bytes} (member : Alignment.pad block Entry.blockAlignment ∈ entry.blocks) :
      block.length < PointerTable.sentinel := by
    have bound := Entry.length_le_of_pad_mem member
    omega
  obtain ⟨cells, cellsLeast, cellsShown⟩ := Cell.exists_canonical fits.cells fits.cellAliases
    (below (by simp [PlayerEntry.blocks]))
  obtain ⟨sprites, spritesLeast, spritesShown⟩ := Sprite.Plan.exists_canonical fits.sprites
    (below (by simp [PlayerEntry.blocks]))
  obtain ⟨palettes, palettesLeast, palettesShown⟩ := Palette.exists_canonical fits.palettes
    fits.paletteAliases (below (by simp [PlayerEntry.blocks]))
  obtain ⟨script, scriptShown, plain⟩ := PlayerScriptPiece.exists_plain fits.script
  obtain ⟨block, rfl, least⟩ := Entry.ScriptPiece.exists_least script
  have cellBlock := cellsLeast.written_eq Cell.bytes_piece (by decide)
  have spriteBlock := spritesLeast.written_eq
  have paletteBlock := palettesLeast.written_eq Palette.bytes_piece (by decide)
  have scriptBlock : Piece.bytes block = Entry.scriptBlock entry.script.bytes := by
    rw [least.bytes_eq, ← PlayerScriptPiece.bytes_eq plain, scriptShown]
  have blockShown : Piece.value block = entry.script := scriptShown
  obtain ⟨cellValues, cellAliases⟩ := Prod.mk.inj cellsShown
  obtain ⟨paletteValues, paletteAliases⟩ := Prod.mk.inj palettesShown
  have spriteValues : sprites.row.sprites = entry.sprites := spritesShown
  rw [cellValues, cellAliases] at cellBlock
  rw [paletteValues, paletteAliases] at paletteBlock
  rw [spriteValues] at spriteBlock
  have blocksEq : entry.blocks = [Piece.bytes cells, Piece.bytes sprites, Piece.bytes block,
      Piece.bytes palettes] := by
    rw [← cellBlock, ← spriteBlock, ← paletteBlock, scriptBlock]
    rfl
  have held := Entry.holds_pointers short
  rw [blocksEq] at held
  let plan : Plan := ⟨0, cells, sprites, block, palettes, (Entry.holds_header_iff rfl).mpr held⟩
  refine ⟨plan, ⟨rfl, cellsLeast, spritesLeast, least, plain, palettesLeast⟩, ?_⟩
  show plan.entry = entry
  simp only [Plan.entry, plan, cellsShown, spritesShown, blockShown, palettesShown]

end PlayerEntry.Plan

namespace ObjectEntry.Plan

structure Canonical (plan : Plan) : Prop where
  pointer : plan.words.head? = some 0x10
  cells : plan.cells.Canonical Cell.alignment
  sprites : plan.sprites.Canonical
  script : plan.script.Least
  slots : plan.script.script.actions.Plain

variable {plan : Plan}

theorem holds_unused (plan : Plan) : Width.u32.holds plan.unused = true :=
  (Entry.holds_header_iff rfl).mp plan.fits plan.unused (by simp)

theorem fits_entry (plan : Plan) : plan.entry.Fits where
  cells := plan.cells.fits_values Cell.value_piece
  cellAliases := plan.cells.aliasesFit
  sprites := plan.sprites.row.fits
  script := plan.script.script.scriptFits
  unused := plan.holds_unused

theorem Canonical.gap_eq (canonical : plan.Canonical) : plan.gap = 0 := by
  have pointer := Option.some.inj canonical.pointer
  have first : ((16 + plan.gap : Nat) : Int) = 0x10 := pointer
  omega

theorem Canonical.blocks_eq (canonical : plan.Canonical) : plan.entry.blocks = plan.blocks := by
  have cells := canonical.cells.written_eq Cell.bytes_piece (by decide)
  have sprites := canonical.sprites.written_eq
  have script : Piece.bytes plan.script = Entry.scriptBlock plan.entry.script.bytes := by
    rw [canonical.script.bytes_eq, ← ObjectScriptPiece.bytes_eq canonical.slots]
    rfl
  rw [blocks, ← cells, ← sprites, script]
  rfl

theorem Canonical.words_eq (canonical : plan.Canonical) :
    Entry.pointersFrom Entry.headerSize plan.entry.blocks ++ [plan.entry.unused] = plan.words := by
  rw [canonical.blocks_eq, words, canonical.gap_eq]
  rfl

theorem Canonical.bytes_eq (canonical : plan.Canonical) : plan.entry.bytes = Piece.bytes plan := by
  rw [ObjectEntry.bytes, canonical.words_eq, canonical.blocks_eq]
  show _ = Entry.headerBytes plan.words plan.gap ++ plan.blocks.flatten
  rw [canonical.gap_eq, Entry.headerBytes]
  simp [Bytes.filled]

theorem Canonical.offsets_hold (canonical : plan.Canonical) :
    ∀ offset ∈ plan.entry.offsets, Width.u32.holds offset = true := by
  have cells := canonical.cells.offsets_eq Cell.bytes_piece (by decide)
  have sprites := canonical.sprites.offsets_eq
  have whole : plan.entry.offsets = plan.cells.offsets ++ plan.sprites.offsets ++
      Entry.pointersFrom Entry.headerSize plan.entry.blocks := by
    rw [← cells, ← sprites]
    rfl
  have words : ∀ word ∈ plan.words, Width.u32.holds word = true :=
    (Entry.holds_header_iff rfl).mp plan.fits
  rw [← canonical.words_eq] at words
  rw [whole]
  simp only [List.forall_mem_append] at words ⊢
  exact ⟨⟨fun offset member => (plan.cells.tableFits.bounded offset member).holds,
    fun offset member => (plan.sprites.tableFits.bounded offset member).holds⟩, words.1⟩

theorem exists_canonical {entry : ObjectEntry} (fits : entry.Fits)
    (short : entry.bytes.length < PointerTable.sentinel) :
    ∃ plan : Plan, plan.Canonical ∧ Piece.value plan = entry := by
  have header : (Entry.headerLayout.spell
      (Entry.pointersFrom Entry.headerSize entry.blocks ++ [entry.unused])).length = 16 := by
    refine Layout.length_spell_of_exact ?_
    rw [List.length_append, Entry.length_pointersFrom]
    rfl
  rw [ObjectEntry.bytes, List.length_append, header] at short
  have below {block : Bytes} (member : Alignment.pad block Entry.blockAlignment ∈ entry.blocks) :
      block.length < PointerTable.sentinel := by
    have bound := Entry.length_le_of_pad_mem member
    omega
  obtain ⟨cells, cellsLeast, cellsShown⟩ := Cell.exists_canonical fits.cells fits.cellAliases
    (below (by simp [ObjectEntry.blocks]))
  obtain ⟨sprites, spritesLeast, spritesShown⟩ := Sprite.Plan.exists_canonical fits.sprites
    (below (by simp [ObjectEntry.blocks]))
  obtain ⟨script, scriptShown, plain⟩ := ObjectScriptPiece.exists_plain fits.script
  obtain ⟨block, rfl, least⟩ := Entry.ScriptPiece.exists_least script
  have cellBlock := cellsLeast.written_eq Cell.bytes_piece (by decide)
  have spriteBlock := spritesLeast.written_eq
  have scriptBlock : Piece.bytes block = Entry.scriptBlock entry.script.bytes := by
    rw [least.bytes_eq, ← ObjectScriptPiece.bytes_eq plain, scriptShown]
  have blockShown : Piece.value block = entry.script := scriptShown
  obtain ⟨cellValues, cellAliases⟩ := Prod.mk.inj cellsShown
  have spriteValues : sprites.row.sprites = entry.sprites := spritesShown
  rw [cellValues, cellAliases] at cellBlock
  rw [spriteValues] at spriteBlock
  have blocksEq : entry.blocks = [Piece.bytes cells, Piece.bytes sprites, Piece.bytes block] := by
    rw [← cellBlock, ← spriteBlock, scriptBlock]
    rfl
  have held : ∀ word ∈ Entry.pointersFrom 16 entry.blocks ++ [entry.unused],
      Width.u32.holds word = true := by
    rw [List.forall_mem_append, List.forall_mem_singleton]
    exact ⟨Entry.holds_pointers short, fits.unused⟩
  rw [blocksEq] at held
  let plan : Plan := ⟨0, cells, sprites, block, entry.unused,
    (Entry.holds_header_iff rfl).mpr held⟩
  refine ⟨plan, ⟨rfl, cellsLeast, spritesLeast, least, plain⟩, ?_⟩
  show plan.entry = entry
  simp only [Plan.entry, plan, cellsShown, spritesShown, blockShown]

end ObjectEntry.Plan

end FighterData
