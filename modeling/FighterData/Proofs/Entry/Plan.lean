import FighterData.Proofs.Entry.Sections

/-! How an entry is laid out: the header, zeros up to the first block, and the blocks without a gap.
The pointers follow from the blocks. -/
namespace FighterData

namespace PlayerEntry

structure Plan where
  gap : Nat
  cells : EntryArray.Plan { cell : Cell // cell.fits = true }
  sprites : Sprite.Plan
  script : Entry.ScriptPiece PlayerScriptPiece
  palettes : EntryArray.Plan { palette : Palette // palette.fits = true }
  fits : Entry.headerLayout.holds (Entry.pointersFrom (16 + gap)
    [Piece.bytes cells, Piece.bytes sprites, Piece.bytes script, Piece.bytes palettes]) = true

namespace Plan

def blocks (plan : Plan) : List Bytes :=
  [Piece.bytes plan.cells, Piece.bytes plan.sprites, Piece.bytes plan.script,
    Piece.bytes plan.palettes]

def pointers (plan : Plan) : List Int :=
  Entry.pointersFrom (16 + plan.gap) plan.blocks

def entry (plan : Plan) : PlayerEntry where
  cells := (Piece.value plan.cells).1
  sprites := Piece.value plan.sprites
  script := Piece.value plan.script
  palettes := (Piece.value plan.palettes).1
  cellAliases := (Piece.value plan.cells).2
  paletteAliases := (Piece.value plan.palettes).2

instance : Piece Plan PlayerEntry where
  value := entry
  bytes plan := Entry.headerBytes plan.pointers plan.gap ++ plan.blocks.flatten

theorem length_header (plan : Plan) :
    (Entry.headerBytes plan.pointers plan.gap).length = 16 + plan.gap :=
  Entry.length_headerBytes plan.fits _

end Plan

variable {buffer : Buffer} {place stop : Nat}

/-- An entry that is read up to an end inside the buffer is carried there as some plan. -/
theorem exists_plan_of_gives {first : Int} {entry : PlayerEntry} (inside : stop ≤ buffer.size)
    (given : (PlayerEntry.read first stop).Gives buffer place entry) :
    ∃ (start : Nat) (plan : Plan), first = start ∧ Piece.value plan = entry ∧
      buffer.Carries start stop (Piece.bytes plan) := by
  simp only [read, Reader.gives_bind_iff] at given
  obtain ⟨pointers, _, header, ⟨cells, cellAliases⟩, _, cellRead, sprites, _, spriteRead, script,
    _, scriptRead, ⟨palettes, paletteAliases⟩, _, paletteRead, _, _, _, done⟩ := given
  obtain rfl := Reader.eq_of_gives_pure done
  obtain ⟨start, one, two, three, four, rfl, rfl, fits, opening⟩ :=
    Entry.exists_of_reads_readHeader header
  have place (pointer : Nat) : (start : Int) + pointer = (start + pointer : Nat) := rfl
  -- a section ends where the next one starts, so the last one bounds all of them
  obtain ⟨palette, paletteShown, fourth⟩ := Palette.readArray_readsSections.exists_piece
    (place four) rfl inside paletteRead.gives
  obtain ⟨body, rfl, third⟩ :=
    Entry.readPlayerScript_readsSections.exists_piece (place three) (place four)
      (Nat.le_trans fourth.start_le inside) scriptRead.gives
  obtain ⟨sprite, rfl, second⟩ := Sprite.readArray_readsSections.exists_piece (place two)
    (place three) (Nat.le_trans third.start_le third.stop_le) spriteRead.gives
  obtain ⟨cell, cellShown, first⟩ := Cell.readArray_readsSections.exists_piece (place one)
    (place two) (Nat.le_trans second.start_le second.stop_le) cellRead.gives
  obtain ⟨gap, opened, opens⟩ := opening (Nat.le_trans first.start_le first.stop_le)
  have firstEnd := first.stop_eq
  have secondEnd := second.stop_eq
  have thirdEnd := third.stop_eq
  have secondPlace : two = 16 + gap + (Piece.bytes cell).length := by omega
  have thirdPlace : three = two + (Piece.bytes sprite).length := by omega
  have fourthPlace : four = three + (Piece.bytes body).length := by omega
  have pointed : [(one : Int), two, three, four] = Entry.pointersFrom (16 + gap)
      [Piece.bytes cell, Piece.bytes sprite, Piece.bytes body, Piece.bytes palette] := by
    rw [fourthPlace, thirdPlace, secondPlace, opened]
    rfl
  let plan : Plan := ⟨gap, cell, sprite, body, palette, by rw [← pointed]; exact fits⟩
  refine ⟨start, plan, rfl, ?_, ?_⟩
  · show plan.entry = _
    simp only [Plan.entry, plan, cellShown, paletteShown]
  · have blocks := first.append (second.append (third.append fourth))
    have joined := opens.append blocks
    rw [pointed] at joined
    simpa [Piece.bytes, Plan.pointers, Plan.blocks, plan] using joined

theorem gives_of_plan {start : Nat} {plan : Plan}
    (carried : buffer.Carries start stop (Piece.bytes plan)) :
    (PlayerEntry.read start stop).Gives buffer place (Piece.value plan) := by
  obtain ⟨begins, header, blocks⟩ := Buffer.carries_append_iff.mp carried
  have flat : plan.blocks.flatten = Piece.bytes plan.cells ++ (Piece.bytes plan.sprites ++
      (Piece.bytes plan.script ++ Piece.bytes plan.palettes)) := by
    simp [Plan.blocks]
  rw [flat] at blocks
  obtain ⟨two, first, blocks⟩ := Buffer.carries_append_iff.mp blocks
  obtain ⟨three, second, blocks⟩ := Buffer.carries_append_iff.mp blocks
  obtain ⟨four, third, fourth⟩ := Buffer.carries_append_iff.mp blocks
  have opened := header.stop_eq
  have length := plan.length_header
  have firstEnd := first.stop_eq
  have secondEnd := second.stop_eq
  have thirdEnd := third.stop_eq
  have place (index pointer position : Nat) (held : plan.pointers.getD index 0 = pointer)
      (reached : start + pointer = position) :
      (start : Int) + plan.pointers.getD index 0 = position := by
    rw [held, ← reached]
    rfl
  have cellsAt := place 0 _ begins rfl (by omega)
  have spritesAt := place 1 _ two rfl (by omega)
  have scriptAt := place 2 _ three rfl (by omega)
  have palettesAt := place 3 _ four rfl (by omega)
  unfold read
  refine (Entry.reads_readHeader plan.fits rfl header).bind_gives ?_
  refine (Cell.readArray_readsSections.gives cellsAt spritesAt first).bind fun middle => ?_
  refine (Sprite.readArray_readsSections.gives spritesAt scriptAt second).bind fun middle => ?_
  refine (Entry.readPlayerScript_readsSections.gives scriptAt palettesAt third).bind fun middle => ?_
  refine (Palette.readArray_readsSections.gives palettesAt rfl fourth).bind fun middle => ?_
  exact (Reader.reads_note _).bind_gives (Reader.gives_pure _)

theorem readsSections : Reader.ReadsSections PlayerEntry.read Plan := by
  intro buffer stop place first entry inside
  constructor
  · intro given
    exact exists_plan_of_gives inside given
  · intro found
    obtain ⟨start, plan, rfl, rfl, carried⟩ := found
    exact gives_of_plan carried

end PlayerEntry

namespace ObjectEntry

/-- An object has no palettes; the last word of its header is kept as it is. -/
structure Plan where
  gap : Nat
  cells : EntryArray.Plan { cell : Cell // cell.fits = true }
  sprites : Sprite.Plan
  script : Entry.ScriptPiece ObjectScriptPiece
  unused : Int
  fits : Entry.headerLayout.holds (Entry.pointersFrom (16 + gap)
    [Piece.bytes cells, Piece.bytes sprites, Piece.bytes script] ++ [unused]) = true

namespace Plan

def blocks (plan : Plan) : List Bytes :=
  [Piece.bytes plan.cells, Piece.bytes plan.sprites, Piece.bytes plan.script]

def words (plan : Plan) : List Int :=
  Entry.pointersFrom (16 + plan.gap) plan.blocks ++ [plan.unused]

def entry (plan : Plan) : ObjectEntry where
  cells := (Piece.value plan.cells).1
  sprites := Piece.value plan.sprites
  script := Piece.value plan.script
  unused := plan.unused
  cellAliases := (Piece.value plan.cells).2

instance : Piece Plan ObjectEntry where
  value := entry
  bytes plan := Entry.headerBytes plan.words plan.gap ++ plan.blocks.flatten

theorem length_header (plan : Plan) :
    (Entry.headerBytes plan.words plan.gap).length = 16 + plan.gap :=
  Entry.length_headerBytes plan.fits _

end Plan

variable {buffer : Buffer} {place stop : Nat}

/-- An entry that is read up to an end inside the buffer is carried there as some plan. -/
theorem exists_plan_of_gives {first : Int} {entry : ObjectEntry} (inside : stop ≤ buffer.size)
    (given : (ObjectEntry.read first stop).Gives buffer place entry) :
    ∃ (start : Nat) (plan : Plan), first = start ∧ Piece.value plan = entry ∧
      buffer.Carries start stop (Piece.bytes plan) := by
  simp only [read, Reader.gives_bind_iff] at given
  obtain ⟨pointers, _, header, ⟨cells, cellAliases⟩, _, cellRead, sprites, _, spriteRead, script,
    _, scriptRead, _, _, _, done⟩ := given
  obtain rfl := Reader.eq_of_gives_pure done
  obtain ⟨start, one, two, three, four, rfl, rfl, fits, opening⟩ :=
    Entry.exists_of_reads_readHeader header
  have place (pointer : Nat) : (start : Int) + pointer = (start + pointer : Nat) := rfl
  obtain ⟨body, rfl, third⟩ := Entry.readObjectScript_readsSections.exists_piece (place three)
    rfl inside scriptRead.gives
  obtain ⟨sprite, rfl, second⟩ := Sprite.readArray_readsSections.exists_piece (place two)
    (place three) (Nat.le_trans third.start_le inside) spriteRead.gives
  obtain ⟨cell, cellShown, first⟩ := Cell.readArray_readsSections.exists_piece (place one)
    (place two) (Nat.le_trans second.start_le second.stop_le) cellRead.gives
  obtain ⟨gap, opened, opens⟩ := opening (Nat.le_trans first.start_le first.stop_le)
  have firstEnd := first.stop_eq
  have secondEnd := second.stop_eq
  have secondPlace : two = 16 + gap + (Piece.bytes cell).length := by omega
  have thirdPlace : three = two + (Piece.bytes sprite).length := by omega
  have pointed : [(one : Int), two, three, four] = Entry.pointersFrom (16 + gap)
      [Piece.bytes cell, Piece.bytes sprite, Piece.bytes body] ++ [(four : Int)] := by
    rw [thirdPlace, secondPlace, opened]
    rfl
  let plan : Plan := ⟨gap, cell, sprite, body, four, by rw [← pointed]; exact fits⟩
  refine ⟨start, plan, rfl, ?_, ?_⟩
  · show plan.entry = _
    simp only [Plan.entry, plan, cellShown]
    rfl
  · have joined := opens.append (first.append (second.append third))
    rw [pointed] at joined
    simpa [Piece.bytes, Plan.words, Plan.blocks, plan] using joined

theorem gives_of_plan {start : Nat} {plan : Plan}
    (carried : buffer.Carries start stop (Piece.bytes plan)) :
    (ObjectEntry.read start stop).Gives buffer place (Piece.value plan) := by
  obtain ⟨begins, header, blocks⟩ := Buffer.carries_append_iff.mp carried
  have flat : plan.blocks.flatten = Piece.bytes plan.cells ++ (Piece.bytes plan.sprites ++
      Piece.bytes plan.script) := by
    simp [Plan.blocks]
  rw [flat] at blocks
  obtain ⟨two, first, blocks⟩ := Buffer.carries_append_iff.mp blocks
  obtain ⟨three, second, third⟩ := Buffer.carries_append_iff.mp blocks
  have opened := header.stop_eq
  have length := plan.length_header
  have firstEnd := first.stop_eq
  have secondEnd := second.stop_eq
  have place (index pointer position : Nat) (held : plan.words.getD index 0 = pointer)
      (reached : start + pointer = position) :
      (start : Int) + plan.words.getD index 0 = position := by
    rw [held, ← reached]
    rfl
  have cellsAt := place 0 _ begins rfl (by omega)
  have spritesAt := place 1 _ two rfl (by omega)
  have scriptAt := place 2 _ three rfl (by omega)
  unfold read
  refine (Entry.reads_readHeader plan.fits rfl header).bind_gives ?_
  refine (Cell.readArray_readsSections.gives cellsAt spritesAt first).bind fun middle => ?_
  refine (Sprite.readArray_readsSections.gives spritesAt scriptAt second).bind fun middle => ?_
  refine (Entry.readObjectScript_readsSections.gives scriptAt rfl third).bind fun middle => ?_
  exact (Reader.reads_note _).bind_gives (Reader.gives_pure _)

theorem readsSections : Reader.ReadsSections ObjectEntry.read Plan := by
  intro buffer stop place first entry inside
  constructor
  · intro given
    exact exists_plan_of_gives inside given
  · intro found
    obtain ⟨start, plan, rfl, rfl, carried⟩ := found
    exact gives_of_plan carried

end ObjectEntry

end FighterData
