import FighterData.Proofs.Entry.Plan
import FighterData.Proofs.EntryArray.Entries
import FighterData.Proofs.Script.Writing
import FighterData.Proofs.Sprite.Writing

/-! Encoding entries. `PlayerEntry.Fits` and `ObjectEntry.Fits` say which entries can be encoded and
read again; what is left to chance is whether the offsets fit. All of them are collected, so that
encoding succeeds exactly if they do. -/
namespace FighterData

theorem Entry.holds_header_iff {words : List Int} (length : words.length = 4) :
    headerLayout.holds words = true ↔ ∀ word ∈ words, Width.u32.holds word = true := by
  constructor
  · exact Layout.holds_of_mem_replicate
  · intro each
    have held := Layout.holds_replicate each
    rwa [length] at held

theorem Entry.join_eq_ok_iff {blocks : List Bytes} {extra : List Int} {data : Bytes}
    (length : blocks.length + extra.length = 4) :
    join blocks extra = .ok data ↔
      (∀ word ∈ pointersFrom headerSize blocks ++ extra, Width.u32.holds word = true) ∧
        data = headerLayout.spell (pointersFrom headerSize blocks ++ extra) ++ blocks.flatten := by
  have words : (pointersFrom headerSize blocks ++ extra).length = 4 := by simpa using length
  simp only [join, bind_eq_ok_iff, Layout.encode_eq_ok_iff, holds_header_iff words,
    exists_made_iff, pure, Except.pure, Except.ok.injEq]
  rw [@eq_comm _ data]

namespace PlayerEntry

structure Fits (entry : PlayerEntry) : Prop where
  cells : ∀ cell ∈ entry.cells, cell.fits = true
  cellAliases : EntryArray.AliasesFit entry.cells entry.cellAliases
  sprites : Sprite.RowFits entry.sprites
  script : entry.script.Fits
  palettes : ∀ palette ∈ entry.palettes, palette.fits = true
  paletteAliases : EntryArray.AliasesFit entry.palettes entry.paletteAliases

/-- The blocks behind the header. -/
def blocks (entry : PlayerEntry) : List Bytes :=
  [Alignment.pad (EntryArray.written (Cell.entries entry.cells) entry.cellAliases)
      Entry.blockAlignment,
    Alignment.pad (EntryArray.written (Sprite.arrayBlocks entry.sprites) []) Entry.blockAlignment,
    Entry.scriptBlock entry.script.bytes,
    Alignment.pad (EntryArray.written (Palette.entries entry.palettes) entry.paletteAliases)
      Entry.blockAlignment]

/-- The offsets of the three tables and the pointers of the header. -/
def offsets (entry : PlayerEntry) : List Int :=
  (PointerTable.layOut (Cell.entries entry.cells) entry.cellAliases).1 ++
    (PointerTable.layOut (Sprite.arrayBlocks entry.sprites) []).1 ++
    (PointerTable.layOut (Palette.entries entry.palettes) entry.paletteAliases).1 ++
    Entry.pointersFrom Entry.headerSize entry.blocks

def bytes (entry : PlayerEntry) : Bytes :=
  Entry.headerLayout.spell (Entry.pointersFrom Entry.headerSize entry.blocks) ++
    entry.blocks.flatten

/-- An entry that fits is encoded exactly if all of its offsets fit. -/
theorem encode_eq_ok_iff {entry : PlayerEntry} (fits : entry.Fits) {data : Bytes} :
    entry.encode = .ok data ↔
      (∀ offset ∈ entry.offsets, Width.u32.holds offset = true) ∧ data = entry.bytes := by
  simp only [encode, bind_eq_ok_iff, Cell.encodeArray_eq_ok_iff fits.cells fits.cellAliases,
    Sprite.encodeArray_eq_ok_iff, PlayerScript.encode_of_fits fits.script, Except.ok.injEq,
    Palette.encodeArray_eq_ok_iff fits.palettes fits.paletteAliases]
  simp only [offsets, List.forall_mem_append]
  constructor
  · intro found
    obtain ⟨_, ⟨cells, rfl⟩, _, ⟨_, sprites, rfl⟩, _, rfl, _, ⟨palettes, rfl⟩, joined⟩ := found
    obtain ⟨pointers, same⟩ := (Entry.join_eq_ok_iff rfl).mp joined
    rw [List.append_nil] at pointers same
    exact ⟨⟨⟨⟨cells, sprites⟩, palettes⟩, pointers⟩, same⟩
  · intro found
    obtain ⟨⟨⟨⟨cells, sprites⟩, palettes⟩, pointers⟩, same⟩ := found
    refine ⟨_, ⟨cells, rfl⟩, _, ⟨fits.sprites.headers, sprites, rfl⟩, _, rfl, _, ⟨palettes, rfl⟩,
      (Entry.join_eq_ok_iff rfl).mpr ?_⟩
    rw [List.append_nil]
    exact ⟨pointers, same⟩

end PlayerEntry

namespace ObjectEntry

structure Fits (entry : ObjectEntry) : Prop where
  cells : ∀ cell ∈ entry.cells, cell.fits = true
  cellAliases : EntryArray.AliasesFit entry.cells entry.cellAliases
  sprites : Sprite.RowFits entry.sprites
  script : Action.ScriptFits entry.script.actions
  unused : Width.u32.holds entry.unused = true

def blocks (entry : ObjectEntry) : List Bytes :=
  [Alignment.pad (EntryArray.written (Cell.entries entry.cells) entry.cellAliases)
      Entry.blockAlignment,
    Alignment.pad (EntryArray.written (Sprite.arrayBlocks entry.sprites) []) Entry.blockAlignment,
    Entry.scriptBlock entry.script.bytes]

/-- The offsets of the two tables and the pointers of the header. -/
def offsets (entry : ObjectEntry) : List Int :=
  (PointerTable.layOut (Cell.entries entry.cells) entry.cellAliases).1 ++
    (PointerTable.layOut (Sprite.arrayBlocks entry.sprites) []).1 ++
    Entry.pointersFrom Entry.headerSize entry.blocks

def bytes (entry : ObjectEntry) : Bytes :=
  Entry.headerLayout.spell (Entry.pointersFrom Entry.headerSize entry.blocks ++ [entry.unused]) ++
    entry.blocks.flatten

theorem encode_eq_ok_iff {entry : ObjectEntry} (fits : entry.Fits) {data : Bytes} :
    entry.encode = .ok data ↔
      (∀ offset ∈ entry.offsets, Width.u32.holds offset = true) ∧ data = entry.bytes := by
  simp only [encode, bind_eq_ok_iff, Cell.encodeArray_eq_ok_iff fits.cells fits.cellAliases,
    Sprite.encodeArray_eq_ok_iff, ObjectScript.encode_of_fits fits.script, Except.ok.injEq]
  simp only [offsets, List.forall_mem_append]
  constructor
  · intro found
    obtain ⟨_, ⟨cells, rfl⟩, _, ⟨_, sprites, rfl⟩, _, rfl, joined⟩ := found
    obtain ⟨words, same⟩ := (Entry.join_eq_ok_iff rfl).mp joined
    rw [List.forall_mem_append] at words
    exact ⟨⟨⟨cells, sprites⟩, words.1⟩, same⟩
  · intro found
    obtain ⟨⟨⟨cells, sprites⟩, pointers⟩, same⟩ := found
    have words : ∀ word ∈ Entry.pointersFrom Entry.headerSize entry.blocks ++ [entry.unused],
        Width.u32.holds word = true := by
      rw [List.forall_mem_append, List.forall_mem_singleton]
      exact ⟨pointers, fits.unused⟩
    exact ⟨_, ⟨cells, rfl⟩, _, ⟨fits.sprites.headers, sprites, rfl⟩, _, rfl,
      (Entry.join_eq_ok_iff rfl).mpr ⟨words, same⟩⟩

end ObjectEntry

end FighterData
