import FighterData.PointerTable
import FighterData.Proofs.Piece

/-! Pointer tables as they stand in a file: the words of the offsets, and FF up to the first entry.
The closing word is the first four bytes of that fill. A table that is read is such a table, once
its fill is known to end inside the buffer. -/
namespace FighterData

/-- An offset of a table, in the byte order of its file. -/
structure WordPiece (order : ByteOrder) where
  offset : Int
  fits : Width.u32.holds offset = true

instance {order : ByteOrder} : Piece (WordPiece order) Int where
  value := WordPiece.offset
  bytes piece := order.arrange (Width.u32.encode piece.offset)

theorem Reader.word_readsPieces (order : ByteOrder) :
    (Reader.field .u32 order).ReadsPieces (WordPiece order) := by
  intro buffer start stop offset
  simp only [reads_field_iff, encodeField_eq_ok_iff]
  constructor
  · intro read
    obtain ⟨_, ⟨fits, rfl⟩, carried⟩ := read
    exact ⟨⟨offset, fits⟩, rfl, carried⟩
  · intro found
    obtain ⟨piece, rfl, carried⟩ := found
    exact ⟨_, ⟨piece.fits, rfl⟩, carried⟩

namespace PointerTable

/-- The words of the offsets, one after the other. -/
def wordBytes (order : ByteOrder) (offsets : List Int) : Bytes :=
  offsets.flatMap fun offset => order.arrange (Width.u32.encode offset)

/-- A whole table, up to its first entry. -/
def spell (order : ByteOrder) (offsets : List Int) (padding : Nat) : Bytes :=
  wordBytes order offsets ++ Bytes.filled 0xFF padding

@[simp] theorem length_wordBytes (order : ByteOrder) (offsets : List Int) :
    (wordBytes order offsets).length = 4 * offsets.length := by
  induction offsets with
  | nil => rfl
  | cons offset rest ih =>
      have more : wordBytes order (offset :: rest) =
          order.arrange (Width.u32.encode offset) ++ wordBytes order rest := List.flatMap_cons
      rw [more]
      simp [ih, Width.size]
      omega

@[simp] theorem length_spell (order : ByteOrder) (offsets : List Int) (padding : Nat) :
    (spell order offsets padding).length = 4 * offsets.length + padding := by
  simp [spell]

theorem wordBytes_append (order : ByteOrder) (front back : List Int) :
    wordBytes order (front ++ back) = wordBytes order front ++ wordBytes order back :=
  List.flatMap_append

/-- The closing word is fill, in either byte order. -/
theorem wordBytes_sentinel (order : ByteOrder) :
    wordBytes order [sentinel] = Bytes.filled 0xFF 4 := by
  cases order <;> decide

/-- What a word of a table may say, the closing word aside. -/
def IsOffset (offset : Int) : Prop :=
  0 ≤ offset ∧ offset < sentinel
deriving Decidable

theorem IsOffset.holds {offset : Int} (bounds : IsOffset offset) :
    Width.u32.holds offset = true := by
  obtain ⟨lower, upper⟩ := bounds
  unfold sentinel at upper
  exact Width.holds_u32_iff.mpr ⟨offset.toNat, by omega, by omega⟩

theorem isOffset_iff {offset : Int} :
    IsOffset offset ↔ Width.u32.holds offset = true ∧ offset ≠ sentinel := by
  constructor
  · intro bounds
    exact ⟨bounds.holds, by have upper := bounds.2; omega⟩
  · intro bounds
    obtain ⟨number, rfl, below⟩ := Width.holds_u32_iff.mp bounds.1
    have other := bounds.2
    unfold sentinel at other
    exact ⟨by omega, by unfold sentinel; omega⟩

/-- How a table and its offsets hang together: the padding reaches to the first entry, and a table
without offsets is one block of fill. -/
structure Fits (offsets : List Int) (padding : Nat) : Prop where
  bounded : ∀ offset ∈ offsets, IsOffset offset
  room : 4 ≤ padding
  first : ∀ offset ∈ offsets.head?, offset = 4 * offsets.length + padding
  empty : offsets = [] → padding = 16

theorem reads_words_iff {order : ByteOrder} {words : List Int} {buffer : Buffer}
    {start stop : Nat} :
    (Reader.upToLast (Reader.field .u32 order) (· == sentinel)).Reads buffer start words stop ↔
      ∃ offsets, words = offsets ++ [sentinel] ∧ (∀ offset ∈ offsets, IsOffset offset) ∧
        buffer.Carries start stop (wordBytes order offsets ++ Bytes.filled 0xFF 4) := by
  have spelled (each : List (WordPiece order)) :
      Piece.bytes each = wordBytes order (Piece.value each) := by
    simp [Piece.bytes, Piece.value, wordBytes, List.flatMap_map]
  rw [Reader.ReadsPieces.upToLast (Reader.word_readsPieces order)
    (Reader.field_advances .u32 order)]
  constructor
  · intro found
    obtain ⟨each, rfl, only, carried⟩ := found
    obtain ⟨offsets, last, split, ended, plain⟩ := onlyLast_iff.mp only
    obtain rfl : last = sentinel := by simpa using ended
    refine ⟨offsets, split, ?_, ?_⟩
    · intro offset member
      have held : ∀ word ∈ Piece.value each, Width.u32.holds word = true := by
        intro word inside
        obtain ⟨piece, _, rfl⟩ := List.mem_map.mp inside
        exact piece.fits
      have other : offset ≠ sentinel := by simpa using plain offset member
      exact isOffset_iff.mpr ⟨held offset (by simp [split, member]), other⟩
    · rw [spelled, split, wordBytes_append, wordBytes_sentinel] at carried
      exact carried
  · intro found
    obtain ⟨offsets, rfl, bounded, carried⟩ := found
    have held : ∀ word ∈ offsets ++ [sentinel], Width.u32.holds word = true := by
      intro word member
      cases List.mem_append.mp member with
      | inl inside => exact (bounded word inside).holds
      | inr last =>
          rw [List.mem_singleton.mp last]
          decide
    let each : List (WordPiece order) :=
      (offsets ++ [sentinel]).pmap (fun word fits => ⟨word, fits⟩) held
    have shown : Piece.value each = offsets ++ [sentinel] := by
      simp [each, Piece.value, List.map_pmap]
    refine ⟨each, shown, ?_, ?_⟩
    · refine onlyLast_iff.mpr ⟨offsets, sentinel, rfl, by simp, ?_⟩
      intro offset member
      simpa using (isOffset_iff.mp (bounded offset member)).2
    · rw [spelled, shown, wordBytes_append, wordBytes_sentinel]
      exact carried

theorem paddingOf_eq_ok_iff {base : Int} {offsets : List Int} {padding : Int}
    (bounded : ∀ offset ∈ offsets, IsOffset offset) :
    paddingOf base offsets defaultAlignment = .ok padding ↔
      ∃ count : Nat, padding = count ∧ Fits offsets count := by
  cases offsets with
  | nil =>
      have whole : paddingOf base [] defaultAlignment = .ok 16 := rfl
      rw [whole, Except.ok.injEq]
      constructor
      · intro same
        refine ⟨16, by omega, bounded, by omega, ?_, fun _ => rfl⟩
        simp
      · intro found
        obtain ⟨count, rfl, fits⟩ := found
        rw [fits.empty rfl]
        rfl
  | cons first rest =>
      simp only [paddingOf]
      split
      next narrow =>
        constructor
        · intro refused
          cases refused
        · intro found
          obtain ⟨count, rfl, fits⟩ := found
          have place := fits.first first (by simp)
          have room := fits.room
          omega
      next wide =>
        rw [Except.ok.injEq]
        constructor
        · intro same
          refine ⟨padding.toNat, by omega, bounded, by omega, ?_, by simp⟩
          intro offset head
          have same : first = offset := by simpa using head
          omega
        · intro found
          obtain ⟨count, rfl, fits⟩ := found
          have place := fits.first first (by simp)
          omega

section Reading

variable {base : Int} {order : ByteOrder} {buffer : Buffer} {table : PointerTable}
  {start place stop : Nat}

/-- What a read of a table says before the end of its fill is known to lie in the buffer. -/
theorem exists_of_reads
    (done : (read base order defaultAlignment).Reads buffer place table stop) :
    ∃ start padding : Nat, base = start ∧ table = ⟨start, table.offsets, padding⟩ ∧
      Fits table.offsets padding ∧ stop = start + 4 * table.offsets.length + 4 ∧
      buffer.Carries start stop (wordBytes order table.offsets ++ Bytes.filled 0xFF 4) ∧
      (start + 4 * table.offsets.length + padding ≤ buffer.size →
        buffer.Carries start (start + 4 * table.offsets.length + padding)
          (spell order table.offsets padding)) := by
  simp only [read, Reader.reads_bind_iff, Reader.reads_seek_iff, reads_words_iff,
    Reader.reads_position_iff, Reader.reads_lift_iff, Reader.reads_note_iff,
    Reader.reads_pure_iff] at done
  obtain ⟨_, start, ⟨rfl, _⟩, _, middle, ⟨offsets, rfl, bounded, carried⟩, _, _, ⟨rfl, rfl⟩,
    padding, _, ⟨padded, rfl⟩, _, _, filled, _, _, ⟨sought, _⟩, _, _, rfl, rfl, rfl⟩ := done
  simp only [List.dropLast_concat] at padded filled ⊢
  obtain ⟨count, rfl, fits⟩ := (paddingOf_eq_ok_iff bounded).mp padded
  have ends := carried.stop_eq
  simp only [List.length_append, length_wordBytes, Bytes.length_filled] at ends
  have stopped : start + (4 * offsets.length + 4) = stop := by omega
  refine ⟨start, count, rfl, rfl, fits, by omega, ?_, ?_⟩
  · rwa [ends, stopped] at carried
  · intro whole
    have last : (start : Int) + 4 * offsets.length + count =
        (start + 4 * offsets.length + count : Nat) := by
      simp
    obtain ⟨_, more, rest⟩ := (Reader.reads_expectFill_inside_iff rfl last whole).mp filled
    have room := rest.stop_eq
    simp only [Bytes.length_filled] at room
    have sum : count = 4 + more := by omega
    have joined := carried.append rest
    rw [List.append_assoc, Bytes.filled_append, ← sum] at joined
    exact joined

/-- A table is read where the buffer carries it, if its padding reaches to the first entry. -/
theorem reads_of_padded {alignment : Int} {offsets : List Int} {padding : Nat}
    (bounded : ∀ offset ∈ offsets, IsOffset offset) (room : 4 ≤ padding)
    (padded : paddingOf start offsets alignment = .ok (padding : Int))
    (carried : buffer.Carries start stop (spell order offsets padding)) :
    (read start order alignment).Reads buffer place ⟨start, offsets, padding⟩
      (start + 4 * offsets.length + 4) := by
  have sum : padding = 4 + (padding - 4) := by omega
  have ends := carried.stop_eq
  simp only [length_spell] at ends
  have inside := carried.stop_le
  rw [spell, sum, ← Bytes.filled_append, ← List.append_assoc] at carried
  obtain ⟨middle, words, rest⟩ := Buffer.carries_append_iff.mp carried
  have stopped := words.stop_eq
  simp only [List.length_append, length_wordBytes, Bytes.length_filled] at stopped
  have same : middle = start + 4 * offsets.length + 4 := by omega
  rw [same] at words rest
  have last : (start : Int) + 4 * offsets.length + padding = (stop : Nat) := by omega
  have dropped : (offsets ++ [sentinel]).dropLast = offsets := List.dropLast_concat
  unfold read
  refine (Reader.reads_seek rfl (by omega)).bind ?_
  refine (reads_words_iff.mpr ⟨offsets, rfl, bounded, words⟩).bind ?_
  rw [dropped]
  refine Reader.reads_position.bind ?_
  refine (Reader.reads_lift padded).bind ?_
  refine (Reader.reads_expectFill rfl last rest).bind ?_
  refine (Reader.reads_seek rfl (by omega)).bind ?_
  refine (Reader.reads_note _).bind ?_
  exact Reader.reads_pure_iff.mpr ⟨rfl, rfl⟩

theorem reads_of_carries {offsets : List Int} {padding : Nat} (fits : Fits offsets padding)
    (carried : buffer.Carries start stop (spell order offsets padding)) :
    (read start order defaultAlignment).Reads buffer place ⟨start, offsets, padding⟩
      (start + 4 * offsets.length + 4) :=
  reads_of_padded fits.bounded fits.room
    ((paddingOf_eq_ok_iff fits.bounded).mpr ⟨padding, rfl, fits⟩) carried

end Reading

end PointerTable

end FighterData
