import Mathlib.Data.Nat.Bitwise
import FighterData.Archive
import FighterData.Proofs.Alignment
import FighterData.Proofs.Reading
import FighterData.Proofs.Wrapper

/-! What an archive looks like, and that it is read back. A record starts at the next multiple of 16
behind the one before it, wherever that one ends. Contents may lie anywhere, in any order and over
each other. An archive that was wrapped is read as it was. -/
namespace FighterData.Archive

/-- What is written down for one file. -/
structure Record where
  name : Bytes
  fileId : Nat
  offset : Nat
  hashId : Nat
  contents : Bytes
deriving DecidableEq

/-- The numbers that the header gives to all records. -/
structure Frame where
  dataStart : Nat
  totalSize : Nat
  style : Nat
  nameSize : Nat
deriving DecidableEq, Repr

/-- Words of 32 bits, one after the other. -/
def words (values : List Nat) : Bytes :=
  values.flatMap fun (value : Nat) => Width.u32.encode value

def FitsWords (values : List Nat) : Prop :=
  ∀ value ∈ values, value < 0x100000000

namespace Frame

variable (frame : Frame)

/-- Records have names unless the style has the bit of numbers only or there is no room for them. -/
def Named : Prop :=
  frame.style &&& 2 = 0 ∧ 0 < frame.nameSize

instance : Decidable frame.Named :=
  inferInstanceAs (Decidable (_ ∧ _))

def headerWords (count : Nat) : List Nat :=
  [frame.dataStart, frame.totalSize, count, frame.style, frame.nameSize]

/-- The name up to its size, where there are names. -/
def nameBytes (name : Bytes) : Bytes :=
  if frame.Named then name ++ Bytes.filled 0 (frame.nameSize - name.length) else []

def recordBytes (record : Record) : Bytes :=
  frame.nameBytes record.name ++
    words [record.fileId, record.offset, record.contents.length, record.hashId]

/-- A record that fits into its words, and a name that fits its room and is not cut by a zero. -/
structure Fits (record : Record) : Prop where
  words : FitsWords [record.fileId, record.offset, record.contents.length, record.hashId]
  name : frame.Named → record.name.length ≤ frame.nameSize ∧ 0 ∉ record.name

/-- The file of a record, as it is read. -/
def entry (record : Record) : ArchiveEntry where
  name := if frame.Named then some (Text.shiftJis record.name) else none
  fileId := record.fileId
  hashId := record.hashId
  contents := record.contents

/-- The records from a place on, each from a multiple of 16 that is the least behind the one before
it. What lies between them is anything. -/
def Lists (archive : Buffer) : Nat → List Record → Prop
  | _, [] => True
  | place, record :: rest => ∃ stop next,
      archive.Carries place stop (frame.recordBytes record) ∧
        IsLeast {total | recordSize ∣ total ∧ stop ≤ total} next ∧ Lists archive next rest

end Frame

/-- The bytes of an archive with these records. -/
structure Holds (data : Bytes) (frame : Frame) (records : List Record) : Prop where
  numbers : FitsWords (frame.headerWords records.length)
  header : ∃ padding : Bytes, padding.length = 8 ∧
    Buffer.Carries data.toArray 0 recordsStart
      (magic ++ (words (frame.headerWords records.length) ++ padding))
  fits : ∀ record ∈ records, frame.Fits record
  lists : frame.Lists data.toArray recordsStart records
  contents : ∀ record ∈ records,
    Buffer.Carries data.toArray (frame.dataStart + record.offset)
      (frame.dataStart + record.offset + record.contents.length) record.contents

section Words

variable {archive : Buffer} {place stop value index : Nat} {data : Bytes} {values : List Nat}

theorem slice_of_carries (carried : archive.Carries place stop data) :
    slice archive place stop = data :=
  carried.eq_extract.symm

theorem words_cons (value : Nat) (rest : List Nat) :
    words (value :: rest) = Width.u32.encode value ++ words rest :=
  List.flatMap_cons

theorem length_words (values : List Nat) : (words values).length = 4 * values.length := by
  induction values with
  | nil => rfl
  | cons value rest ih =>
      rw [words_cons, List.length_append, Width.length_encode, ih, List.length_cons, Width.size]
      omega

theorem word_of_carries (fits : FitsWords values)
    (carried : archive.Carries place stop (words values)) (found : values[index]? = some value) :
    word archive (place + 4 * index) = value := by
  induction values generalizing place index with
  | nil => cases found
  | cons first rest ih =>
      rw [FitsWords, List.forall_mem_cons] at fits
      rw [words_cons] at carried
      obtain ⟨front, back⟩ := carried.split
      rw [Width.length_encode, Width.size] at front back
      cases index with
      | zero =>
          obtain rfl := Option.some.inj found
          rw [Nat.mul_zero, Nat.add_zero, word, slice_of_carries front,
            Wrapper.toNat_encode fits.1]
      | succ index =>
          have next := ih fits.2 back found
          rwa [Nat.add_assoc, Nat.add_comm 4, ← Nat.mul_succ] at next

end Words

section Records

variable {archive : Buffer} {frame : Frame} {record : Record} {records : List Record}
  {place stop next index : Nat}

/-- The header of the frame as it is read. -/
def Frame.toHeader (frame : Frame) (count : Nat) : Header :=
  ⟨frame.dataStart, count, frame.style, frame.nameSize⟩

theorem hasNames_toHeader (frame : Frame) (count : Nat) :
    (frame.toHeader count).hasNames = true ↔ frame.Named := by
  have bit : frame.style &&& 2 = (frame.style.testBit 1).toNat * 2 := Nat.and_two_pow frame.style 1
  have clear : (!frame.style.testBit 1) = true ↔ frame.style &&& 2 = 0 := by
    rw [bit]
    cases frame.style.testBit 1 <;> simp
  rw [Header.hasNames, Bool.and_eq_true]
  exact and_congr clear decide_eq_true_iff

theorem takeWhile_name {name : Bytes} (whole : 0 ∉ name) (room : Nat) :
    (name ++ Bytes.filled 0 room).takeWhile (· ≠ 0) = name := by
  have other : ∀ byte ∈ name, decide (byte ≠ 0) = true := by
    intro byte member
    exact decide_eq_true fun zero => whole (zero ▸ member)
  rw [List.takeWhile_append_of_pos other]
  cases room with
  | zero => simp [Bytes.filled]
  | succ room => simp [Bytes.filled, List.replicate_succ]

theorem length_nameBytes (fits : frame.Fits record) :
    (frame.nameBytes record.name).length = if frame.Named then frame.nameSize else 0 := by
  unfold Frame.nameBytes
  split
  next named =>
    have room := (fits.name named).1
    rw [List.length_append, Bytes.length_filled]
    omega
  next => rfl

/-- The numbers stand behind the name. -/
theorem numbersPlace_eq (fits : frame.Fits record) (count place : Nat) :
    (frame.toHeader count).numbersPlace place =
      place + (frame.nameBytes record.name).length := by
  rw [length_nameBytes fits, Header.numbersPlace]
  simp only [hasNames_toHeader]
  split <;> rfl

theorem readName_of_carries (fits : frame.Fits record) (count : Nat)
    (carried : archive.Carries place stop (frame.nameBytes record.name)) :
    readName (frame.toHeader count) archive place =
      if frame.Named then some (Text.shiftJis record.name) else none := by
  have ends := carried.stop_eq
  rw [length_nameBytes fits] at ends
  simp only [readName, hasNames_toHeader]
  split
  next named =>
    rw [if_pos named] at ends
    have raw : slice archive place (place + (frame.toHeader count).nameSize) =
        frame.nameBytes record.name := by
      rw [ends] at carried
      exact slice_of_carries carried
    rw [raw, Frame.nameBytes, if_pos named, takeWhile_name (fits.name named).2]
  next => rfl

/-- A record is read where the archive has it, if it also has the contents. -/
theorem readRecord_of_carries (fits : frame.Fits record) (count index : Nat)
    (carried : archive.Carries place stop (frame.recordBytes record))
    (held : archive.Carries (frame.dataStart + record.offset)
      (frame.dataStart + record.offset + record.contents.length) record.contents) :
    readRecord (frame.toHeader count) archive index place = .ok (frame.entry record) := by
  obtain ⟨front, back⟩ := carried.split
  have ends := back.stop_eq
  rw [length_words] at ends
  have inside := back.stop_le
  have whole := held.stop_le
  have number (index value : Nat) (found : [record.fileId, record.offset, record.contents.length,
      record.hashId][index]? = some value) := word_of_carries fits.words back found
  have fileId : word archive (place + (frame.nameBytes record.name).length) = record.fileId :=
    number 0 _ rfl
  have offset : word archive (place + (frame.nameBytes record.name).length + 4) = record.offset :=
    number 1 _ rfl
  have size : word archive (place + (frame.nameBytes record.name).length + 8) =
      record.contents.length := number 2 _ rfl
  have hashId : word archive (place + (frame.nameBytes record.name).length + 12) =
      record.hashId := number 3 _ rfl
  have room : ¬ archive.size <
      place + (frame.nameBytes record.name).length + recordSize := by
    simp only [List.length_cons, List.length_nil] at ends
    rw [recordSize]
    omega
  have reach : ¬ archive.size < frame.dataStart + record.offset + record.contents.length := by
    omega
  have dataStart : (frame.toHeader count).dataStart = frame.dataStart := rfl
  simp only [readRecord, numbersPlace_eq fits, if_neg room, offset, size, fileId, hashId, dataStart,
    if_neg reach, slice_of_carries held, readName_of_carries fits count front, Frame.entry]

theorem nextPlace_of_carries (fits : frame.Fits record) (count : Nat)
    (carried : archive.Carries place stop (frame.recordBytes record))
    (least : IsLeast {total | recordSize ∣ total ∧ stop ≤ total} next) :
    nextPlace (frame.toHeader count) place = next := by
  have ends := carried.stop_eq
  rw [Frame.recordBytes, List.length_append, length_words, ← Nat.add_assoc,
    ← numbersPlace_eq fits count] at ends
  have aligned := (Alignment.isLeast_of_least (Alignment.isLeast_gapNat stop (by decide))).mp least
  rw [aligned, ends]
  rfl

theorem readRecords_of_lists (count index : Nat) (fits : ∀ record ∈ records, frame.Fits record)
    (held : ∀ record ∈ records, archive.Carries (frame.dataStart + record.offset)
      (frame.dataStart + record.offset + record.contents.length) record.contents)
    (listed : frame.Lists archive place records) :
    readRecords (frame.toHeader count) archive index place records.length =
      .ok (records.map frame.entry) := by
  induction records generalizing index place with
  | nil => rfl
  | cons record rest ih =>
      rw [List.forall_mem_cons] at fits held
      obtain ⟨stop, next, carried, least, behind⟩ := listed
      rw [List.length_cons, readRecords, readRecord_of_carries fits.1 count index carried held.1,
        nextPlace_of_carries fits.1 count carried least, ih (index + 1) fits.2 held.2 behind]
      rfl

end Records

section Reading

variable {data packed : Bytes} {frame : Frame} {records : List Record}

theorem Holds.readHeader (holds : Holds data frame records) :
    readHeader data.toArray = .ok (frame.toHeader records.length) := by
  obtain ⟨padding, size, carried⟩ := holds.header
  obtain ⟨front, rest⟩ := carried.split
  obtain ⟨back, _⟩ := rest.split
  have inside := carried.stop_le
  have number (index value : Nat) (found : (frame.headerWords records.length)[index]? = some value) :=
    word_of_carries holds.numbers back found
  have dataStart : word data.toArray 4 = frame.dataStart := number 0 _ rfl
  have count : word data.toArray 12 = records.length := number 2 _ rfl
  have style : word data.toArray 16 = frame.style := number 3 _ rfl
  have nameSize : word data.toArray 20 = frame.nameSize := number 4 _ rfl
  have start : slice data.toArray 0 4 = magic := slice_of_carries front
  have room : ¬ data.toArray.size < 24 := by
    rw [recordsStart] at inside
    omega
  simp only [Archive.readHeader, start, dataStart, count, style, nameSize, if_neg room]
  rfl

/-- Whatever the archive comes out of, it is read as it is. -/
theorem Holds.read_of_contents (holds : Holds data frame records)
    (unpacked : Wrapper.contents packed = .ok data) :
    read packed = .ok (records.map frame.entry) := by
  rw [read, unpacked]
  show (Archive.readHeader data.toArray >>= fun header =>
    readRecords header data.toArray 0 recordsStart header.fileCount) = _
  rw [holds.readHeader]
  exact readRecords_of_lists _ 0 holds.fits holds.contents holds.lists

theorem Holds.detect (holds : Holds data frame records) : Wrapper.detect data = none := by
  obtain ⟨padding, _, carried⟩ := holds.header
  obtain ⟨before, behind, whole, start, _⟩ := carried
  obtain rfl := List.eq_nil_of_length_eq_zero start
  have shape : data = magic ++ (words (frame.headerWords records.length) ++ padding ++ behind) := by
    simpa using whole
  rw [shape]
  rfl

/-- The records of an archive are read in their order, with their names and contents, from the archive
itself and from either way of wrapping it. -/
theorem read_of_holds (holds : Holds data frame records) :
    read data = .ok (records.map frame.entry) ∧
      ∀ wrapper : Wrapper, Wrapper.SizesFit data →
        ∃ packed, wrapper.wrap data = .ok packed ∧ read packed = .ok (records.map frame.entry) := by
  refine ⟨holds.read_of_contents (Wrapper.contents_of_detect holds.detect), fun wrapper fits => ?_⟩
  exact ⟨_, Wrapper.wrap_eq_ok_iff.mpr ⟨fits, rfl⟩,
    holds.read_of_contents (Wrapper.contents_bytes fits)⟩

section Overlapping

def overlappingFrame : Frame := ⟨0x60, 0x63, 0, 5⟩

/-- The second name fills its room, and the contents share a byte. -/
def overlappingRecords : List Record :=
  [⟨[0x61, 0x62], 7, 1, 0x1000, [2, 3]⟩, ⟨[0x63, 0x64, 0x65, 0x66, 0x67], 8, 0, 9, [1, 2]⟩]

def overlapping : Bytes :=
  magic ++ words (overlappingFrame.headerWords 2) ++ Bytes.filled 0 8 ++
    (overlappingRecords.flatMap fun record =>
      overlappingFrame.recordBytes record ++ Bytes.filled 0xEE 11) ++ [1, 2, 3]

instance (archive : Buffer) (start stop : Nat) (data : Bytes) :
    Decidable (archive.Carries start stop data) :=
  decidable_of_iff _ Buffer.carries_iff.symm

theorem overlapping_holds : Holds overlapping overlappingFrame overlappingRecords where
  numbers := by simp [FitsWords, Frame.headerWords, overlappingFrame, overlappingRecords]
  header := ⟨Bytes.filled 0 8, rfl, by decide +kernel⟩
  fits := by
    have fitting (record : Record) (words : ∀ value ∈ [record.fileId, record.offset,
        record.contents.length, record.hashId], value < 0x100000000)
        (name : record.name.length ≤ 5 ∧ 0 ∉ record.name) : overlappingFrame.Fits record :=
      ⟨words, fun _ => name⟩
    rw [overlappingRecords, List.forall_mem_cons, List.forall_mem_singleton]
    exact ⟨fitting _ (by decide) (by decide), fitting _ (by decide) (by decide)⟩
  lists := by
    refine ⟨0x35, 0x40, by decide +kernel,
      (Alignment.isLeast_gap_iff (by decide)).mpr rfl, 0x55, 0x60, by decide +kernel,
      (Alignment.isLeast_gap_iff (by decide)).mpr rfl, trivial⟩
  contents := by decide +kernel

theorem read_overlapping :
    Holds overlapping overlappingFrame overlappingRecords ∧ Wrapper.SizesFit overlapping ∧
      read overlapping = .ok [⟨some "ab", 7, 0x1000, [2, 3]⟩, ⟨some "cdefg", 8, 9, [1, 2]⟩] ∧
      ∃ packed, Wrapper.zcmp.wrap overlapping = .ok packed ∧
        read packed = .ok [⟨some "ab", 7, 0x1000, [2, 3]⟩, ⟨some "cdefg", 8, 9, [1, 2]⟩] := by
  have entries : overlappingRecords.map overlappingFrame.entry =
      [⟨some "ab", 7, 0x1000, [2, 3]⟩, ⟨some "cdefg", 8, 9, [1, 2]⟩] := by decide +kernel
  have sizes : Wrapper.SizesFit overlapping := Wrapper.sizesFit_of_bound (by decide)
  have results := read_of_holds overlapping_holds
  rw [entries] at results
  exact ⟨overlapping_holds, sizes, results.1, results.2 .zcmp sizes⟩

end Overlapping

end Reading

end FighterData.Archive
