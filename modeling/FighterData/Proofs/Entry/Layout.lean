import FighterData.Proofs.Entry.Writing
import FighterData.Proofs.Tiling

/-! Where the blocks of an encoded entry stand, whether the entry can be read again or not. The
header points at its blocks, every block but the script is padded to the same step, and a script
block has a fixed remainder, which the step divides as well. So a script that is replaced moves what
follows it by whole pages. -/
namespace FighterData

namespace Entry

/-- Pointers are as aligned as the first of them and the blocks between them. -/
theorem dvd_pointersFrom {step running : Nat} {blocks : List Bytes} (start : step ∣ running)
    (aligned : ∀ block ∈ blocks.dropLast, step ∣ block.length) :
    ∀ pointer ∈ pointersFrom running blocks, (step : Int) ∣ pointer := by
  induction blocks generalizing running with
  | nil => simp [pointersFrom]
  | cons block rest ih =>
      rw [pointersFrom, List.forall_mem_cons]
      refine ⟨Int.natCast_dvd_natCast.mpr start, ?_⟩
      cases rest with
      | nil => simp [pointersFrom]
      | cons other others =>
          rw [List.dropLast_cons_cons, List.forall_mem_cons] at aligned
          exact ih (Nat.dvd_add start aligned.1) aligned.2

theorem dvd_length_flatten {step : Nat} {blocks : List Bytes}
    (aligned : ∀ block ∈ blocks, step ∣ block.length) : step ∣ blocks.flatten.length := by
  induction blocks with
  | nil => exact Nat.dvd_zero step
  | cons block rest ih =>
      rw [List.forall_mem_cons] at aligned
      rw [List.flatten_cons, List.length_append]
      exact Nat.dvd_add aligned.1 (ih aligned.2)

/-- A header with words of its own behind the pointers, and the blocks that it points at. -/
structure LaidOut (pointers extra : List Int) (blocks : List Bytes) (data : Bytes) : Prop where
  header : headerLayout.decode (data.take headerSize) = pointers ++ extra
  first : pointers.head? = some 0x10
  tiled : Bytes.Tiled data (data.take headerSize) pointers blocks
  aligned : ∀ pointer ∈ pointers, 0x10 ∣ pointer

variable {blocks : List Bytes} {extra : List Int} {data : Bytes}

theorem laidOut_of_join (length : blocks.length + extra.length = 4) (some : blocks ≠ [])
    (aligned : ∀ block ∈ blocks, 16 ∣ block.length) (joined : join blocks extra = .ok data) :
    LaidOut (pointersFrom headerSize blocks) extra blocks data := by
  obtain ⟨held, rfl⟩ := (join_eq_ok_iff length).mp joined
  have count : (pointersFrom headerSize blocks ++ extra).length = 4 := by simpa using length
  have encoded := Layout.encode_of_holds ((holds_header_iff count).mpr held)
  have size : (headerLayout.spell (pointersFrom headerSize blocks ++ extra)).length =
      headerSize := Layout.length_spell_of_exact count
  have front : (headerLayout.spell (pointersFrom headerSize blocks ++ extra) ++
      blocks.flatten).take headerSize =
        headerLayout.spell (pointersFrom headerSize blocks ++ extra) :=
    List.take_left' size
  have tiled := tiled_pointersFrom
    (headerLayout.spell (pointersFrom headerSize blocks ++ extra)) blocks
  rw [size] at tiled
  refine ⟨?_, ?_, ?_, ?_⟩
  · rw [front]
    exact Layout.decode_of_encode encoded
  · cases blocks with
    | nil => exact absurd rfl some
    | cons block rest => rfl
  · rw [front]
    exact tiled
  · exact dvd_pointersFrom (by decide) fun block member =>
      aligned block (List.dropLast_subset _ member)

theorem length_of_join (length : blocks.length + extra.length = 4)
    (joined : join blocks extra = .ok data) : data.length = 16 + blocks.flatten.length := by
  obtain ⟨_, rfl⟩ := (join_eq_ok_iff length).mp joined
  have size : (headerLayout.spell (pointersFrom headerSize blocks ++ extra)).length = 16 :=
    Layout.length_spell_of_exact (by rw [List.length_append, length_pointersFrom, length]; rfl)
  rw [List.length_append, size]

theorem dvd_length_of_join (length : blocks.length + extra.length = 4)
    (aligned : ∀ block ∈ blocks, 16 ∣ block.length) (joined : join blocks extra = .ok data) :
    16 ∣ data.length := by
  rw [length_of_join length joined]
  exact Nat.dvd_add (by decide) (dvd_length_flatten aligned)

/-- A script with less than a page of zeros behind it, up to the remainder of script blocks. -/
def IsScriptBlock (script block : Bytes) : Prop :=
  ∃ padding < 0x1000, block = script ++ Bytes.filled 0 padding ∧ block.length % 0x1000 = 0xA00

theorem isScriptBlock (script : Bytes) : IsScriptBlock script (scriptBlock script) := by
  have bounds := scriptPadding_bounds script.length
  have remainder := add_scriptPadding_emod script.length
  simp only [scriptPage, scriptRemainder] at bounds remainder
  refine ⟨(scriptPadding script.length).toNat, by omega, rfl, ?_⟩
  rw [scriptBlock, List.length_append, Bytes.length_filled]
  omega

theorem dvd_length_scriptBlock (script : Bytes) : 16 ∣ (scriptBlock script).length := by
  obtain ⟨_, _, _, remainder⟩ := isScriptBlock script
  omega

/-- Script blocks differ in length by whole pages. -/
theorem page_dvd_sub (script other : Bytes) :
    (0x1000 : Int) ∣ (scriptBlock other).length - (scriptBlock script).length := by
  obtain ⟨_, _, _, first⟩ := isScriptBlock script
  obtain ⟨_, _, _, second⟩ := isScriptBlock other
  omega

end Entry

namespace PlayerEntry

/-- The bytes of an entry: header, cells, sprites, script and palettes. -/
def LaidOut (entry : PlayerEntry) (data : Bytes) : Prop :=
  ∃ cells sprites script block palettes pointers,
    Cell.encodeArray entry.cells entry.cellAliases = .ok cells ∧
    Sprite.encodeArray entry.sprites = .ok sprites ∧ entry.script.encode = .ok script ∧
    Palette.encodeArray entry.palettes entry.paletteAliases = .ok palettes ∧
    Entry.IsScriptBlock script block ∧
    Entry.LaidOut pointers []
      [Alignment.pad cells 0x10, Alignment.pad sprites 0x10, block, Alignment.pad palettes 0x10]
      data

variable {entry : PlayerEntry} {data : Bytes}

/-- Encoding a player is joining its blocks. -/
theorem exists_join_of_encode (encoded : entry.encode = .ok data) :
    ∃ cells sprites script palettes, Cell.encodeArray entry.cells entry.cellAliases = .ok cells ∧
      Sprite.encodeArray entry.sprites = .ok sprites ∧ entry.script.encode = .ok script ∧
      Palette.encodeArray entry.palettes entry.paletteAliases = .ok palettes ∧
      Entry.join [Alignment.pad cells 0x10, Alignment.pad sprites 0x10, Entry.scriptBlock script,
        Alignment.pad palettes 0x10] [] = .ok data := by
  simp only [encode, bind_eq_ok_iff] at encoded
  obtain ⟨cells, first, sprites, second, script, third, palettes, fourth, joined⟩ := encoded
  exact ⟨cells, sprites, script, palettes, first, second, third, fourth, joined⟩

theorem dvd_blocks (cells sprites script palettes : Bytes) :
    ∀ block ∈ [Alignment.pad cells 0x10, Alignment.pad sprites 0x10, Entry.scriptBlock script,
      Alignment.pad palettes 0x10], 16 ∣ block.length := by
  rw [List.forall_mem_cons, List.forall_mem_cons, List.forall_mem_cons, List.forall_mem_singleton]
  exact ⟨Alignment.pad_length_dvd _ (by decide), Alignment.pad_length_dvd _ (by decide),
    Entry.dvd_length_scriptBlock _, Alignment.pad_length_dvd _ (by decide)⟩

theorem laidOut_of_encode (encoded : entry.encode = .ok data) : entry.LaidOut data := by
  obtain ⟨cells, sprites, script, palettes, first, second, third, fourth, joined⟩ :=
    exists_join_of_encode encoded
  exact ⟨cells, sprites, script, _, palettes, _, first, second, third, fourth,
    Entry.isScriptBlock script,
    Entry.laidOut_of_join rfl (by simp) (dvd_blocks cells sprites script palettes) joined⟩

theorem dvd_length_of_encode (encoded : entry.encode = .ok data) : 16 ∣ data.length := by
  obtain ⟨_, _, _, _, _, _, _, _, joined⟩ := exists_join_of_encode encoded
  exact Entry.dvd_length_of_join rfl (dvd_blocks _ _ _ _) joined

/-- Another script changes the length by whole pages. -/
theorem page_dvd_of_encode {script : PlayerScript} {other : Bytes}
    (encoded : entry.encode = .ok data)
    (again : { entry with script := script }.encode = .ok other) :
    (0x1000 : Int) ∣ other.length - data.length := by
  obtain ⟨cells, sprites, body, palettes, first, second, _, fourth, joined⟩ :=
    exists_join_of_encode encoded
  obtain ⟨_, _, changed, _, cellsAgain, spritesAgain, _, palettesAgain, rejoined⟩ :=
    exists_join_of_encode again
  obtain rfl := Except.ok.inj (first.symm.trans cellsAgain)
  obtain rfl := Except.ok.inj (second.symm.trans spritesAgain)
  obtain rfl := Except.ok.inj (fourth.symm.trans palettesAgain)
  have pages := Entry.page_dvd_sub body changed
  have before := Entry.length_of_join rfl joined
  have after := Entry.length_of_join rfl rejoined
  simp only [List.flatten_cons, List.flatten_nil, List.length_append] at before after
  omega

end PlayerEntry

namespace ObjectEntry

/-- The bytes of an entry: header, cells, sprites and script. The last word of the header points
nowhere. -/
def LaidOut (entry : ObjectEntry) (data : Bytes) : Prop :=
  ∃ cells sprites script block pointers,
    Cell.encodeArray entry.cells entry.cellAliases = .ok cells ∧
    Sprite.encodeArray entry.sprites = .ok sprites ∧ entry.script.encode = .ok script ∧
    Entry.IsScriptBlock script block ∧
    Entry.LaidOut pointers [entry.unused]
      [Alignment.pad cells 0x10, Alignment.pad sprites 0x10, block] data

variable {entry : ObjectEntry} {data : Bytes}

theorem exists_join_of_encode (encoded : entry.encode = .ok data) :
    ∃ cells sprites script, Cell.encodeArray entry.cells entry.cellAliases = .ok cells ∧
      Sprite.encodeArray entry.sprites = .ok sprites ∧ entry.script.encode = .ok script ∧
      Entry.join [Alignment.pad cells 0x10, Alignment.pad sprites 0x10, Entry.scriptBlock script]
        [entry.unused] = .ok data := by
  simp only [encode, bind_eq_ok_iff] at encoded
  obtain ⟨cells, first, sprites, second, script, third, joined⟩ := encoded
  exact ⟨cells, sprites, script, first, second, third, joined⟩

theorem dvd_blocks (cells sprites script : Bytes) :
    ∀ block ∈ [Alignment.pad cells 0x10, Alignment.pad sprites 0x10, Entry.scriptBlock script],
      16 ∣ block.length := by
  rw [List.forall_mem_cons, List.forall_mem_cons, List.forall_mem_singleton]
  exact ⟨Alignment.pad_length_dvd _ (by decide), Alignment.pad_length_dvd _ (by decide),
    Entry.dvd_length_scriptBlock _⟩

theorem laidOut_of_encode (encoded : entry.encode = .ok data) : entry.LaidOut data := by
  obtain ⟨cells, sprites, script, first, second, third, joined⟩ := exists_join_of_encode encoded
  exact ⟨cells, sprites, script, _, _, first, second, third, Entry.isScriptBlock script,
    Entry.laidOut_of_join rfl (by simp) (dvd_blocks cells sprites script) joined⟩

theorem dvd_length_of_encode (encoded : entry.encode = .ok data) : 16 ∣ data.length := by
  obtain ⟨_, _, _, _, _, _, joined⟩ := exists_join_of_encode encoded
  exact Entry.dvd_length_of_join rfl (dvd_blocks _ _ _) joined

theorem page_dvd_of_encode {script : ObjectScript} {other : Bytes}
    (encoded : entry.encode = .ok data)
    (again : { entry with script := script }.encode = .ok other) :
    (0x1000 : Int) ∣ other.length - data.length := by
  obtain ⟨cells, sprites, body, first, second, _, joined⟩ := exists_join_of_encode encoded
  obtain ⟨_, _, changed, cellsAgain, spritesAgain, _, rejoined⟩ := exists_join_of_encode again
  obtain rfl := Except.ok.inj (first.symm.trans cellsAgain)
  obtain rfl := Except.ok.inj (second.symm.trans spritesAgain)
  have pages := Entry.page_dvd_sub body changed
  have before := Entry.length_of_join rfl joined
  have after := Entry.length_of_join rfl rejoined
  simp only [List.flatten_cons, List.flatten_nil, List.length_append] at before after
  omega

end ObjectEntry

end FighterData
