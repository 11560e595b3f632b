import FighterData.Proofs.PointerTable.Refusals
import FighterData.Proofs.PointerTable.Spelling

/-! What a table says when it is read. Words are looked up at places of the buffer; a table stands
where its offsets are the words up to the first closing one, and where nothing but FF follows, as
far as the buffer reaches, up to the first entry. Reading returns exactly the table that stands
there. The loop over the words has no bound of its own: it ends at a closing word or where fewer
than four bytes are left. -/
namespace FighterData

namespace PointerTable

variable {buffer : Buffer} {order : ByteOrder}

section Words

/-- The word of four bytes at a place, if they lie inside the buffer. -/
def wordAt? (order : ByteOrder) (buffer : Buffer) (place : Int) : Option Int :=
  if 0 ≤ place ∧ place + 4 ≤ buffer.size then
    some (Width.u32.decode
      (order.arrange (buffer.extract place.toNat (place.toNat + 4)).toList))
  else none

variable {start stop : Nat} {word : Int}

theorem reads_word_iff :
    (Reader.field .u32 order).Reads buffer start word stop ↔
      wordAt? order buffer start = some word ∧ stop = start + 4 := by
  simp only [Reader.field, Reader.reads_bind_iff, Reader.reads_bytes_iff, Reader.reads_pure_iff]
  constructor
  · intro read
    obtain ⟨data, _, ⟨exact, carried⟩, rfl, rfl⟩ := read
    have size : ((Width.u32.size : Nat) : Int) = 4 := rfl
    have length : data.length = 4 := by omega
    have same : stop = start + 4 := by rw [carried.stop_eq, length]
    have inside := carried.stop_le
    rw [same] at carried
    rw [wordAt?, if_pos (by omega), Int.toNat_natCast, ← carried.eq_extract]
    exact ⟨rfl, same⟩
  · intro found
    obtain ⟨held, rfl⟩ := found
    unfold wordAt? at held
    split at held
    next inside =>
      have carried := Buffer.carries_extract (show start ≤ start + 4 by omega)
        (show start + 4 ≤ buffer.size by omega)
      have ends := carried.stop_eq
      refine ⟨_, _, ⟨?_, carried⟩, (Option.some.inj held).symm, rfl⟩
      show (4 : Int) = _
      omega
    next => cases held

/-- From a place on the words are these offsets, and then a closing one. -/
def Lists (order : ByteOrder) (buffer : Buffer) (place : Int) (offsets : List Int) : Prop :=
  (∀ (slot : Nat) (offset : Int), offsets[slot]? = some offset →
    wordAt? order buffer (place + 4 * slot) = some offset ∧ offset ≠ sentinel) ∧
  wordAt? order buffer (place + 4 * offsets.length) = some sentinel

theorem lists_nil_iff {place : Int} :
    Lists order buffer place [] ↔ wordAt? order buffer place = some sentinel := by
  simp [Lists]

theorem lists_cons_iff {place offset : Int} {rest : List Int} :
    Lists order buffer place (offset :: rest) ↔
      (wordAt? order buffer place = some offset ∧ offset ≠ sentinel) ∧
        Lists order buffer (place + 4) rest := by
  have next (slot : Nat) : place + 4 * ((slot + 1 : Nat) : Int) = place + 4 + 4 * slot := by omega
  constructor
  · intro listed
    obtain ⟨each, closing⟩ := listed
    rw [List.length_cons, next] at closing
    refine ⟨by simpa using each 0 offset rfl, fun slot word held => ?_, closing⟩
    rw [← next]
    exact each (slot + 1) word held
  · intro listed
    obtain ⟨first, each, closing⟩ := listed
    refine ⟨fun slot word held => ?_, by rwa [List.length_cons, next]⟩
    cases slot with
    | zero =>
        obtain rfl := Option.some.inj held
        simpa using first
    | succ slot =>
        rw [next]
        exact each slot word held

/-- One round of the loop: a closing word ends it, and any other word is followed by a round. -/
theorem reads_round_iff {words : List Int} :
    (Reader.upToLast (Reader.field .u32 order) (· == sentinel)).Reads buffer start words stop ↔
      (wordAt? order buffer start = some sentinel ∧ words = [sentinel] ∧ stop = start + 4) ∨
        ∃ offset rest, wordAt? order buffer start = some offset ∧ offset ≠ sentinel ∧
          words = offset :: rest ∧
          (Reader.upToLast (Reader.field .u32 order) (· == sentinel)).Reads
            buffer (start + 4) rest stop := by
  rw [Reader.reads_upToLast_iff (Reader.field_advances .u32 order)]
  constructor
  · intro read
    obtain ⟨word, _, here, behind⟩ := read
    obtain ⟨held, rfl⟩ := reads_word_iff.mp here
    split at behind
    next last =>
      rw [beq_iff_eq.mp last] at held behind
      exact Or.inl ⟨held, behind.1, behind.2⟩
    next more =>
      obtain ⟨rest, rfl, behind⟩ := behind
      exact Or.inr ⟨word, rest, held, by simpa using more, rfl, behind⟩
  · intro round
    obtain ⟨held, rfl, rfl⟩ | ⟨offset, rest, held, plain, rfl, behind⟩ := round
    · exact ⟨sentinel, start + 4, reads_word_iff.mpr ⟨held, rfl⟩, by simp⟩
    · refine ⟨offset, start + 4, reads_word_iff.mpr ⟨held, rfl⟩, ?_⟩
      rw [if_neg (by simpa using plain)]
      exact ⟨rest, rfl, behind⟩

/-- The loop over the words reads exactly what is listed. -/
theorem reads_listed_iff {words : List Int} :
    (Reader.upToLast (Reader.field .u32 order) (· == sentinel)).Reads buffer start words stop ↔
      ∃ offsets, words = offsets ++ [sentinel] ∧ Lists order buffer start offsets ∧
        stop = start + 4 * offsets.length + 4 := by
  induction words generalizing start with
  | nil =>
      rw [reads_round_iff]
      simp
  | cons first rest ih =>
      rw [reads_round_iff]
      constructor
      · intro round
        obtain ⟨held, same, rfl⟩ | ⟨offset, others, held, plain, same, behind⟩ := round
        · exact ⟨[], same, lists_nil_iff.mpr held, rfl⟩
        · obtain ⟨rfl, rfl⟩ := List.cons.inj same
          obtain ⟨offsets, rfl, listed, rfl⟩ := ih.mp behind
          refine ⟨first :: offsets, rfl, lists_cons_iff.mpr ⟨⟨held, plain⟩, listed⟩, ?_⟩
          rw [List.length_cons]
          omega
      · intro found
        obtain ⟨offsets, same, listed, rfl⟩ := found
        cases offsets with
        | nil => exact Or.inl ⟨lists_nil_iff.mp listed, same, rfl⟩
        | cons offset others =>
            obtain ⟨rfl, rfl⟩ := List.cons.inj same
            obtain ⟨⟨held, plain⟩, behind⟩ := lists_cons_iff.mp listed
            refine Or.inr ⟨first, _, held, plain, rfl, ih.mpr ⟨others, rfl, behind, ?_⟩⟩
            rw [List.length_cons]
            omega

/-- The loop is refused only behind whole words, where fewer than four bytes are left. -/
theorem refuses_listed {fault : Fault} (inside : start ≤ buffer.size)
    (refused : (Reader.upToLast (Reader.field .u32 order) (· == sentinel)).Refuses
      buffer start fault stop) :
    ∃ count : Nat, stop = start + 4 * count ∧ stop ≤ buffer.size ∧ buffer.size < stop + 4 ∧
      fault = .mismatch (.shortRead 4 (buffer.size - stop)) (some stop) := by
  induction left : buffer.size - start using Nat.strongRecOn generalizing start with
  | ind left ih =>
      obtain here | ⟨word, middle, read, _, behind⟩ :=
        (Reader.refuses_upToLast_iff (Reader.field_advances .u32 order)).mp refused
      · obtain ⟨short, rfl, rfl⟩ :=
          Reader.refuses_bytes_iff.mp (Reader.refuses_field_iff.mp here)
        have size : ((Width.u32.size : Nat) : Int) = 4 := rfl
        rw [size] at short ⊢
        exact ⟨0, rfl, inside, by omega, rfl⟩
      · have bounds := Reader.field_advances .u32 order _ _ _ _ read
        obtain ⟨_, rfl⟩ := reads_word_iff.mp read
        obtain ⟨count, rfl, rest⟩ := ih _ (by omega) bounds.2 behind rfl
        exact ⟨count + 1, by omega, rest⟩

/-- A closing word is fill. -/
theorem eq_fill_of_closing {place : Int} (closing : wordAt? order buffer place = some sentinel)
    {position : Nat} {byte : UInt8} (lower : place ≤ position) (upper : position < place + 4)
    (held : buffer[position]? = some byte) : byte = 0xFF := by
  obtain ⟨start, rfl⟩ : ∃ start : Nat, place = start := by
    unfold wordAt? at closing
    split at closing
    next inside => exact ⟨place.toNat, by omega⟩
    next => cases closing
  obtain ⟨data, encoded, carried⟩ := Reader.reads_field_iff.mp (reads_word_iff.mpr ⟨closing, rfl⟩)
  have spelled : encodeField order .u32 sentinel = .ok (Bytes.filled 0xFF 4) := by
    cases order <;> rfl
  obtain rfl := Except.ok.inj (encoded.symm.trans spelled)
  have filled := Bytes.isFilled_iff.mpr (show Bytes.filled 0xFF 4 = _ by rw [Bytes.length_filled])
  rw [carried.eq_extract] at filled
  exact Bytes.isFilled_extract_iff.mp filled position byte (by omega) (by omega) held

end Words

section Standing

variable {base alignment padding : Int} {offsets : List Int} {table : PointerTable}
  {place stop : Nat}

/-- What the buffer says about a table at `base`, and where the reader of that table stops. -/
structure Stands (order : ByteOrder) (buffer : Buffer) (base alignment : Int)
    (table : PointerTable) (stop : Nat) : Prop where
  place : table.base = base
  listed : Lists order buffer base table.offsets
  cursor : (stop : Int) = base + 4 * table.offsets.length + 4
  size : table.size = table.offsets.headD alignment
  room : 4 * table.offsets.length + 4 ≤ table.size
  filled : ∀ (position : Nat) (byte : UInt8), base + 4 * table.offsets.length ≤ position →
    position < base + table.size → buffer[position]? = some byte → byte = 0xFF

/-- The padding reaches up to the first entry, or makes up a whole block. -/
theorem paddingOf_eq_ok_iff_size (positive : 0 < alignment) (room : 4 ≤ padding) :
    paddingOf base offsets alignment = .ok padding ↔
      4 * offsets.length + padding = offsets.headD alignment := by
  cases offsets with
  | nil =>
      have nonzero : alignment ≠ 0 := by omega
      simp [paddingOf, Alignment.excess, nonzero, eq_comm]
  | cons first rest =>
      rw [paddingOf, List.headD_cons]
      split
      next narrow =>
        constructor
        · intro refused
          cases refused
        · intro same
          omega
      next wide =>
        rw [Except.ok.injEq]
        omega

theorem Lists.nonneg (listed : Lists order buffer base offsets) : 0 ≤ base := by
  have first : ∃ word, wordAt? order buffer base = some word := by
    cases offsets with
    | nil => exact ⟨_, lists_nil_iff.mp listed⟩
    | cons offset rest => exact ⟨_, (lists_cons_iff.mp listed).1.1⟩
  obtain ⟨word, held⟩ := first
  unfold wordAt? at held
  split at held
  next inside => exact inside.1
  next => cases held

theorem Lists.stop_le (listed : Lists order buffer base offsets) :
    base + 4 * offsets.length + 4 ≤ buffer.size := by
  have closing := listed.2
  unfold wordAt? at closing
  split at closing
  next inside => exact inside.2
  next => cases closing

theorem stands_mk_iff {own : Int} :
    Stands order buffer base alignment ⟨own, offsets, padding⟩ stop ↔
      own = base ∧ Lists order buffer base offsets ∧
      (stop : Int) = base + 4 * offsets.length + 4 ∧
      4 * offsets.length + padding = offsets.headD alignment ∧ 4 ≤ padding ∧
      ∀ (position : Nat) (byte : UInt8), base + 4 * offsets.length ≤ position →
        position < base + (4 * offsets.length + padding) → buffer[position]? = some byte →
          byte = 0xFF := by
  have room : 4 * (offsets.length : Int) + 4 ≤ 4 * offsets.length + padding ↔ 4 ≤ padding := by
    omega
  constructor
  · intro stands
    exact ⟨stands.place, stands.listed, stands.cursor, stands.size, room.mp stands.room,
      stands.filled⟩
  · intro parts
    obtain ⟨place, listed, cursor, size, wide, filled⟩ := parts
    exact ⟨place, listed, cursor, size, room.mpr wide, filled⟩

/-- The check of the fill begins behind the closing word, which is fill itself. -/
theorem expectFill_behind_closing {start : Nat} {what : String} (room : 4 ≤ padding)
    (listed : Lists order buffer start offsets) :
    (Reader.expectFill (start + 4 * offsets.length + 4 : Nat)
        (start + 4 * offsets.length + padding) 0xFF what).Reads buffer place () stop ↔
      stop = place ∧ ∀ (position : Nat) (byte : UInt8),
        (start : Int) + 4 * offsets.length ≤ position →
        position < (start : Int) + (4 * offsets.length + padding) → buffer[position]? = some byte →
          byte = 0xFF := by
  rw [Reader.expectFill, Reader.reads_expectGap_iff, Bytes.isFilled_extract_iff]
  constructor
  · intro checked
    obtain ⟨_, filled, rfl⟩ := checked
    refine ⟨rfl, fun position byte lower upper held => ?_⟩
    by_cases closing : (position : Int) < start + 4 * offsets.length + 4
    · exact eq_fill_of_closing listed.2 lower closing held
    · exact filled position byte (by omega) (by omega) held
  · intro found
    obtain ⟨rfl, filled⟩ := found
    refine ⟨by omega, fun position byte lower upper held => ?_, rfl⟩
    exact filled position byte (by omega) (by omega) held

/-- Reading a table returns the one that stands there. -/
theorem reads_iff_stands (positive : 0 < alignment) :
    (read base order alignment).Reads buffer place table stop ↔
      Stands order buffer base alignment table stop := by
  constructor
  · intro done
    simp only [read, Reader.reads_bind_iff, Reader.reads_seek_iff, reads_listed_iff,
      Reader.reads_position_iff, Reader.reads_lift_iff, Reader.reads_note_iff,
      Reader.reads_pure_iff] at done
    obtain ⟨_, start, ⟨rfl, _⟩, _, _, ⟨offsets, rfl, listed, rfl⟩, _, _, ⟨rfl, rfl⟩, padding, _,
      ⟨padded, rfl⟩, _, _, checked, _, _, ⟨sought, _⟩, _, _, rfl, rfl, rfl⟩ := done
    simp only [List.dropLast_concat] at padded checked ⊢
    have room : 4 ≤ padding := by
      have ordered := (Reader.reads_expectGap_iff.mp checked).1
      omega
    obtain ⟨_, filled⟩ := (expectFill_behind_closing room listed).mp checked
    exact stands_mk_iff.mpr ⟨rfl, listed, by omega,
      (paddingOf_eq_ok_iff_size positive room).mp padded, room, filled⟩
  · intro stands
    obtain ⟨own, offsets, padding⟩ := table
    obtain ⟨rfl, listed, cursor, size, room, filled⟩ := stands_mk_iff.mp stands
    obtain ⟨start, rfl⟩ : ∃ start : Nat, own = start := ⟨own.toNat, by have := listed.nonneg; omega⟩
    have inside := listed.stop_le
    obtain rfl : stop = start + 4 * offsets.length + 4 := by omega
    have dropped : (offsets ++ [sentinel]).dropLast = offsets := List.dropLast_concat
    unfold read
    refine (Reader.reads_seek rfl (by omega)).bind ?_
    refine (reads_listed_iff.mpr ⟨offsets, rfl, listed, rfl⟩).bind ?_
    rw [dropped]
    refine Reader.reads_position.bind ?_
    refine (Reader.reads_lift ((paddingOf_eq_ok_iff_size positive room).mpr size)).bind ?_
    refine ((expectFill_behind_closing room listed).mpr ⟨rfl, filled⟩).bind ?_
    refine (Reader.reads_seek rfl (by omega)).bind ?_
    refine (Reader.reads_note _).bind ?_
    exact Reader.reads_pure_iff.mpr ⟨rfl, rfl⟩

/-- Without a closing word a table that begins in the buffer is refused where the words run out. -/
theorem refuses_of_unclosed {fault : Fault}
    (unclosed : ∀ slot : Nat, wordAt? order buffer (base + 4 * slot) ≠ some sentinel)
    (refused : (read base order alignment).Refuses buffer place fault stop) :
    (base < 0 ∨ buffer.size < base) ∧ stop = place ∧
        fault = .mismatch (.offsetOutside base buffer.size) none ∨
      (∃ count : Nat, (stop : Int) = base + 4 * count) ∧ stop ≤ buffer.size ∧
        buffer.size < stop + 4 ∧
        fault = .mismatch (.shortRead 4 (buffer.size - stop)) (some stop) := by
  obtain early | ⟨_, start, sought, behind⟩ := Reader.refuses_bind_iff.mp refused
  · obtain ⟨outside, rfl, rfl⟩ := Reader.refuses_seek_iff.mp early
    exact Or.inl ⟨outside, rfl, rfl⟩
  · obtain ⟨rfl, inside⟩ := Reader.reads_seek_iff.mp sought
    obtain short | ⟨words, middle, read, _⟩ := Reader.refuses_bind_iff.mp behind
    · obtain ⟨count, rfl, bounds⟩ := refuses_listed inside short
      exact Or.inr ⟨⟨count, by omega⟩, bounds⟩
    · obtain ⟨offsets, _, listed, _⟩ := reads_listed_iff.mp read
      exact absurd listed.2 (unclosed offsets.length)

/-- The last offset stands eight bytes before the position behind the closing word. -/
theorem Stands.last (stands : Stands order buffer base alignment table stop)
    (nonempty : table.offsets ≠ []) :
    wordAt? order buffer (stop - 8) = table.offsets.getLast? := by
  have positive := List.length_pos_iff.mpr nonempty
  have place : (stop : Int) - 8 = base + 4 * ((table.offsets.length - 1 : Nat) : Int) := by
    have cursor := stands.cursor
    omega
  have inside : table.offsets.length - 1 < table.offsets.length := by omega
  have last := List.getElem?_eq_getElem inside
  rw [List.getLast?_eq_getElem?, last, place]
  exact (stands.listed.1 _ _ last).1

/-- A table is read where it stands, with the last offset eight bytes back, and is refused
everywhere else for a fault of the format. It has no more words than the buffer; where none of them
closes a table, the refusal names a mismatch, behind the last whole word. -/
theorem read_stands_or_refuses (buffer : Buffer) (base : Int) (order : ByteOrder)
    (positive : 0 < alignment) (place : Nat) :
    (∀ table stop, (read base order alignment).Reads buffer place table stop ↔
      Stands order buffer base alignment table stop) ∧
    (∀ table stop, (read base order alignment).Reads buffer place table stop →
      table.offsets ≠ [] → wordAt? order buffer (stop - 8) = table.offsets.getLast?) ∧
    ((∃ table stop, (read base order alignment).Reads buffer place table stop ∧
        4 * table.offsets.length + 4 ≤ buffer.size - base) ∨
      ∃ fault stop, (read base order alignment).Refuses buffer place fault stop ∧
        fault.IsFormat) ∧
    ((∀ slot : Nat, wordAt? order buffer (base + 4 * slot) ≠ some sentinel) →
      ∃ cause position stop,
        (read base order alignment).Refuses buffer place (.mismatch cause position) stop ∧
        ((base < 0 ∨ buffer.size < base) ∧ stop = place ∨
          (∃ count : Nat, (stop : Int) = base + 4 * count) ∧ stop ≤ buffer.size ∧
            buffer.size < stop + 4)) := by
  have nonzero : alignment ≠ 0 := by omega
  have ended := Reader.reads_or_refuses (read base order alignment) buffer place
  refine ⟨fun table stop => reads_iff_stands positive, ?_, ?_, ?_⟩
  · intro table stop done nonempty
    exact ((reads_iff_stands positive).mp done).last nonempty
  · obtain ⟨table, stop, done⟩ | ⟨fault, stop, refused⟩ := ended
    · have room := ((reads_iff_stands positive).mp done).listed.stop_le
      exact Or.inl ⟨table, stop, done, by omega⟩
    · exact Or.inr ⟨fault, stop, refused,
        read_aligned_refusesOnly base order nonzero place fault stop refused⟩
  · intro unclosed
    obtain ⟨table, stop, done⟩ | ⟨fault, stop, refused⟩ := ended
    · have closing := ((reads_iff_stands positive).mp done).listed.2
      exact absurd closing (unclosed _)
    · obtain ⟨outside, stays, rfl⟩ | ⟨whole, inside, short, rfl⟩ :=
        refuses_of_unclosed unclosed refused
      · exact ⟨_, _, stop, refused, Or.inl ⟨outside, stays⟩⟩
      · exact ⟨_, _, stop, refused, Or.inr ⟨whole, inside, short⟩⟩

/-- Three other bytes, two offsets, the closing word, and half of the fill that the first offset
asks for. -/
def cutTable : Buffer :=
  #[1, 2, 3, 0, 0, 0, 16, 222, 173, 190, 239, 255, 255, 255, 255, 255, 255]

theorem read_stands_or_refuses_cut :
    (0 : Int) < 32 ∧
      Stands .big cutTable 3 32 ⟨3, [16, 0xDEADBEEF], 8⟩ 15 ∧
      wordAt? .big cutTable (15 - 8) = some 0xDEADBEEF ∧
      (∀ slot : Nat, wordAt? .big cutTable (15 + 4 * slot) ≠ some sentinel) ∧
      ∃ cause position stop,
        (read 15 .big 32).Refuses cutTable 9 (.mismatch cause position) stop := by
  have done : (read 3 .big 32).Reads cutTable 9 ⟨3, [16, 0xDEADBEEF], 8⟩ 15 := ⟨rfl, rfl⟩
  have unclosed (slot : Nat) : wordAt? .big cutTable (15 + 4 * slot) ≠ some sentinel := by
    have size : cutTable.size = 17 := rfl
    rw [wordAt?, if_neg (by omega)]
    exact nofun
  have whole := read_stands_or_refuses cutTable 3 .big (show (0 : Int) < 32 by decide) 9
  have behind := read_stands_or_refuses cutTable 15 .big (show (0 : Int) < 32 by decide) 9
  obtain ⟨cause, position, stop, refused, _⟩ := behind.2.2.2 unclosed
  exact ⟨by decide, (whole.1 _ _).mp done, whole.2.1 _ _ done (by decide), unclosed, cause,
    position, stop, refused⟩

end Standing

end PointerTable

end FighterData
