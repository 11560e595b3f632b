import FighterData.Proofs.EntryArray.Pieces
import FighterData.Proofs.EntryArray.Reading
import FighterData.Proofs.Script.Pieces
import FighterData.Proofs.Sprite.Plan

/-! The parts of an entry: the sections it is made of, the last of which may be a script with zeros
behind it, and the header. The pointers are read before the blocks, so a pointer that leads too far
is found out only by the reader of the block behind it. -/
namespace FighterData

theorem Cell.readArray_readsSections :
    Reader.ReadsSections Cell.readArray (EntryArray.Plan { cell : Cell // cell.fits = true }) := by
  have sections : Reader.ReadsSections
      (fun start stop => EntryArray.read start stop Cell.read "Cell array" "Cell")
        (EntryArray.Plan { cell : Cell // cell.fits = true }) :=
    EntryArray.readsSections Cell.readsPieces fun piece => piece.val.length_bytes_pos
  intro buffer stop place first result inside
  rw [← sections inside, readArray, Reader.gives_bind_iff]
  constructor
  · intro found
    obtain ⟨array, middle, read, noted⟩ := found
    obtain ⟨_, _, _, done⟩ := Reader.gives_bind_iff.mp noted
    obtain rfl := Reader.eq_of_gives_pure done
    exact read.gives
  · intro found
    obtain ⟨middle, read⟩ := found
    exact ⟨result, middle, read, (Reader.reads_note _).bind_gives (Reader.gives_pure _)⟩

theorem Palette.readArray_readsSections :
    Reader.ReadsSections Palette.readArray
      (EntryArray.Plan { palette : Palette // palette.fits = true }) := by
  have solid (piece : { palette : Palette // palette.fits = true }) :
      0 < (Piece.bytes piece).length := by
    have length : (Piece.bytes piece).length = 1040 := Palette.length_bytes piece.property
    omega
  intro buffer stop place first result inside
  exact EntryArray.readsSections Palette.readsPieces solid inside

namespace Entry

/-- A script and the zeros behind it. -/
structure ScriptPiece (π : Type) where
  script : π
  slack : Nat

instance {π α : Type} [Piece π α] : Piece (ScriptPiece π) α where
  value piece := Piece.value piece.script
  bytes piece := Piece.bytes piece.script ++ Bytes.filled 0 piece.slack

variable {π α : Type} [Piece π α] {buffer : Buffer} {place stop : Nat}

theorem readScript_readsSections {script : Reader α} (pieces : script.ReadsPieces π) :
    Reader.ReadsSections (readScript script) (ScriptPiece π) := by
  intro buffer stop place first value inside
  simp only [readScript, Reader.gives_bind_iff, Reader.reads_seek_iff, Reader.reads_position_iff]
  constructor
  · intro found
    obtain ⟨_, start, ⟨begins, _⟩, _, middle, read, _, _, ⟨rfl, rfl⟩, _, _, checked, done⟩ := found
    obtain rfl := Reader.eq_of_gives_pure done
    obtain ⟨piece, rfl, carried⟩ := pieces.mp read
    obtain ⟨_, slack, zeros⟩ := (Reader.reads_expectFill_inside_iff rfl rfl inside).mp checked
    exact ⟨start, ⟨piece, slack⟩, begins, rfl, carried.append zeros⟩
  · intro found
    obtain ⟨start, piece, begins, rfl, carried⟩ := found
    obtain ⟨middle, script, zeros⟩ := Buffer.carries_append_iff.mp carried
    have placed : start ≤ buffer.size := Nat.le_trans script.start_le script.stop_le
    exact ⟨(), start, ⟨begins, placed⟩, _, middle, pieces.reads script, middle, middle, ⟨rfl, rfl⟩,
      (), middle, Reader.reads_expectFill rfl rfl zeros, Reader.gives_pure _⟩

theorem readPlayerScript_readsSections :
    Reader.ReadsSections (readScript PlayerScript.read) (ScriptPiece PlayerScriptPiece) :=
  readScript_readsSections PlayerScript.readsPieces

theorem readObjectScript_readsSections :
    Reader.ReadsSections (readScript ObjectScript.read) (ScriptPiece ObjectScriptPiece) :=
  readScript_readsSections ObjectScript.readsPieces

/-- The words of the header, and the zeros up to the first block. -/
def headerBytes (pointers : List Int) (gap : Nat) : Bytes :=
  headerLayout.spell pointers ++ Bytes.filled 0 gap

theorem length_headerBytes {pointers : List Int} (fits : headerLayout.holds pointers = true)
    (gap : Nat) : (headerBytes pointers gap).length = 16 + gap := by
  have words : (headerLayout.spell pointers).length = 16 := Layout.length_spell fits
  simp [headerBytes, words]

theorem exists_of_holds {pointers : List Int} (fits : headerLayout.holds pointers = true) :
    ∃ first second third fourth : Nat, pointers = [↑first, ↑second, ↑third, ↑fourth] := by
  have length : pointers.length = 4 := Layout.length_of_holds fits
  match pointers, length with
  | [a, b, c, d], _ =>
      simp only [headerLayout, List.replicate, Layout.holds, Bool.and_eq_true] at fits
      obtain ⟨first, rfl, _⟩ := Width.holds_u32_iff.mp fits.1
      obtain ⟨second, rfl, _⟩ := Width.holds_u32_iff.mp fits.2.1
      obtain ⟨third, rfl, _⟩ := Width.holds_u32_iff.mp fits.2.2.1
      obtain ⟨fourth, rfl, _⟩ := Width.holds_u32_iff.mp fits.2.2.2.1
      exact ⟨first, second, third, fourth, rfl⟩

/-- What a header says before its first block is known to start inside the buffer. -/
theorem exists_of_reads_readHeader {first : Int} {pointers : List Int}
    (read : (readHeader first).Reads buffer place pointers stop) :
    ∃ start one two three four : Nat, first = start ∧
      pointers = [↑one, ↑two, ↑three, ↑four] ∧ headerLayout.holds pointers = true ∧
      (start + one ≤ buffer.size → ∃ gap, one = 16 + gap ∧
        buffer.Carries start (start + one) (headerBytes pointers gap)) := by
  simp only [readHeader, Reader.reads_bind_iff, Reader.reads_seek_iff,
    Reader.reads_fields_iff_spell] at read
  obtain ⟨_, start, ⟨rfl, _⟩, words, middle, ⟨fits, carried⟩, _, _, checked, done⟩ := read
  obtain ⟨rfl, _⟩ := Reader.reads_pure_iff.mp done
  obtain ⟨one, two, three, four, rfl⟩ := exists_of_holds fits
  refine ⟨start, one, two, three, four, rfl, rfl, fits, ?_⟩
  intro inside
  have size := carried.stop_eq
  have length : (headerLayout.spell [(one : Int), two, three, four]).length = 16 :=
    Layout.length_spell fits
  have begins : (start : Int) + headerSize = middle := by
    simp only [headerSize]
    omega
  have ends : (start : Int) + [(one : Int), two, three, four].getD 0 0 = (start + one : Nat) := rfl
  obtain ⟨_, gap, zeros⟩ := (Reader.reads_expectFill_inside_iff begins ends inside).mp checked
  have room := zeros.stop_eq
  simp only [Bytes.length_filled] at room
  exact ⟨gap, by omega, carried.append zeros⟩

theorem reads_readHeader {start gap : Nat} {pointers : List Int}
    (fits : headerLayout.holds pointers = true) (first : pointers.getD 0 0 = (16 + gap : Nat))
    (carried : buffer.Carries start stop (headerBytes pointers gap)) :
    (readHeader start).Reads buffer place pointers (start + 16) := by
  obtain ⟨middle, words, zeros⟩ := Buffer.carries_append_iff.mp carried
  have size := words.stop_eq
  have length : (headerLayout.spell pointers).length = 16 := Layout.length_spell fits
  have room := zeros.stop_eq
  simp only [Bytes.length_filled] at room
  have placed := words.stop_le
  have same : middle = start + 16 := by omega
  rw [same] at words zeros
  have begins : (start : Int) + headerSize = (start + 16 : Nat) := rfl
  have ends : (start : Int) + pointers.getD 0 0 = stop := by
    rw [first]
    omega
  unfold readHeader
  refine (Reader.reads_seek rfl (by omega)).bind ?_
  refine (Reader.reads_fields_iff_spell.mpr ⟨fits, words⟩).bind ?_
  refine (Reader.reads_expectFill begins ends zeros).bind ?_
  exact Reader.reads_pure_iff.mpr ⟨rfl, rfl⟩

end Entry

end FighterData
