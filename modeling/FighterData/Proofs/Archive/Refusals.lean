import Mathlib.Logic.Function.Iterate
import FighterData.Proofs.Archive

/-! How wrapped data and archives are refused. Nearly every refusal says that the layout is not the
one expected, or that a stream is corrupt. The exception is a header that is cut where its numbers
should be: both headers are read as a whole, and too few bytes there are no matter of the layout.
An archive that is read has one file for each of its records, and each file has the size that its
record states. -/
namespace FighterData

/-- The fault that the bytes do not match the layout expected of them. -/
def Fault.IsMismatch (fault : Fault) : Prop :=
  ∃ cause position, fault = .mismatch cause position

namespace Wrapper

variable {wrapper : Wrapper} {data : Bytes} {fault : Fault}

/-- Behind the header stands the whole stream that the header states. -/
structure Streams (wrapper : Wrapper) (data : Bytes) (contents : Nat) (stream : Bytes) : Prop where
  sizes : wrapper.readSizes data = .ok (contents, stream.length)
  held : Bytes.slice data headerSize (headerSize + stream.length) = stream

/-- The data end before the two sizes behind the magic do. -/
def IsCut (data : Bytes) (fault : Fault) : Prop :=
  ∃ wrapper, detect data = some wrapper ∧ data.length < wrapper.magic.length + 8 ∧
    fault = .shortHeader wrapper.magic.length 8 data.length

/-- The whole stream is there, and it cannot be decompressed. -/
def IsCorrupt (data : Bytes) (fault : Fault) : Prop :=
  ∃ wrapper contents stream cause, detect data = some wrapper ∧
    wrapper.Streams data contents stream ∧ Zlib.decompress stream = .error cause ∧
    fault = .stream cause

theorem readSizes_eq_error_iff :
    wrapper.readSizes data = .error fault ↔ data.length < wrapper.magic.length + 8 ∧
      fault = .shortHeader wrapper.magic.length 8 data.length := by
  have size : sizesLayout.size = 8 := rfl
  unfold readSizes
  simp only [size]
  split
  next cut => simp [cut, eq_comm]
  next whole => simp [whole]

theorem refused_of_unwrap (found : detect data = some wrapper)
    (refused : wrapper.unwrap data = .error fault) :
    fault.IsMismatch ∨ IsCorrupt data fault ∨ IsCut data fault := by
  obtain early | ⟨⟨contents, compressed⟩, sizes, refused⟩ := bind_eq_error_iff.mp refused
  · obtain ⟨cut, same⟩ := readSizes_eq_error_iff.mp early
    exact Or.inr (Or.inr ⟨wrapper, found, cut, same⟩)
  · dsimp only at refused
    split at refused
    next =>
      cases refused
      exact Or.inl ⟨_, _, rfl⟩
    next exact =>
      rw [ne_eq, Decidable.not_not] at exact
      obtain broken | ⟨payload, _, refused⟩ := bind_eq_error_iff.mp refused
      · obtain ⟨cause, corrupt, rfl⟩ := mapError_eq_error_iff.mp broken
        refine Or.inr (Or.inl ⟨wrapper, contents, _, cause, found, ⟨?_, ?_⟩, corrupt, rfl⟩)
        · rw [exact, sizes]
        · rw [exact]
      · split at refused
        next =>
          cases refused
          exact Or.inl ⟨_, _, rfl⟩
        next => cases refused

theorem refused_of_contents (refused : contents data = .error fault) :
    fault.IsMismatch ∨ IsCorrupt data fault ∨ IsCut data fault := by
  unfold contents at refused
  split at refused
  next => cases refused
  next wrapper found => exact refused_of_unwrap found refused

theorem contents_of_isCut (cut : IsCut data fault) : contents data = .error fault := by
  obtain ⟨wrapper, found, short, same⟩ := cut
  have early := readSizes_eq_error_iff.mpr ⟨short, same⟩
  rw [contents, found]
  exact bind_eq_error_iff.mpr (Or.inl early)

end Wrapper

namespace Archive

variable {archive : Buffer} {header : Header} {index place count : Nat} {fault : Fault}
  {data : Bytes}

/-- The data start like an archive and end before the numbers of its header do. -/
def IsCut (data : Bytes) (fault : Fault) : Prop :=
  ∃ contents, Wrapper.contents data = .ok contents ∧ magic <+: contents ∧ contents.length < 24 ∧
    fault = .shortHeader 4 20 contents.length

/-- Where each record starts. -/
def Header.recordPlace (header : Header) (index : Nat) : Nat :=
  (nextPlace header)^[index] recordsStart

/-- The size that a record states for its file. -/
def Header.statedSize (header : Header) (archive : Buffer) (index : Nat) : Nat :=
  word archive (header.numbersPlace (header.recordPlace index) + 8)

/-- The place that a record states for its file. -/
def Header.statedStart (header : Header) (archive : Buffer) (index : Nat) : Nat :=
  header.dataStart + word archive (header.numbersPlace (header.recordPlace index) + 4)

theorem slice_magic (contents : Bytes) : slice contents.toArray 0 4 = contents.take 4 := by
  simp [slice, List.extract_eq_take_drop]

theorem magic_isPrefixOf_slice {contents : Bytes} :
    magic.isPrefixOf (slice contents.toArray 0 4) = true ↔ magic <+: contents := by
  have short : magic.length ≤ 4 := Nat.le_refl 4
  rw [List.isPrefixOf_iff_prefix, slice_magic, List.prefix_take_iff, and_iff_left short]

theorem isMismatch_of_readRecord
    (refused : readRecord header archive index place = .error fault) : fault.IsMismatch := by
  unfold readRecord at refused
  dsimp only at refused
  split at refused
  next =>
    cases refused
    exact ⟨_, _, rfl⟩
  next =>
    split at refused
    next =>
      cases refused
      exact ⟨_, _, rfl⟩
    next => cases refused

theorem isMismatch_of_readRecords
    (refused : readRecords header archive index place count = .error fault) :
    fault.IsMismatch := by
  induction count generalizing index place with
  | zero => cases refused
  | succ count ih =>
      obtain here | ⟨entry, _, refused⟩ := bind_eq_error_iff.mp refused
      · exact isMismatch_of_readRecord here
      · obtain later | ⟨_, _, none⟩ := bind_eq_error_iff.mp refused
        · exact ih later
        · cases none

/-- A file is cut out where its record says. -/
theorem contents_of_readRecord {entry : ArchiveEntry}
    (read : readRecord header archive index place = .ok entry) :
    entry.contents.length = word archive (header.numbersPlace place + 8) ∧
      archive.Carries (header.dataStart + word archive (header.numbersPlace place + 4))
        (header.dataStart + word archive (header.numbersPlace place + 4) + entry.contents.length)
        entry.contents := by
  unfold readRecord at read
  dsimp only at read
  split at read
  next => cases read
  next =>
    split at read
    next => cases read
    next inside =>
      obtain rfl := Except.ok.inj read
      have carried := Buffer.carries_extract (Nat.le_add_right
        (header.dataStart + word archive (header.numbersPlace place + 4))
        (word archive (header.numbersPlace place + 8))) (Nat.not_lt.mp inside)
      have size : (slice archive (header.dataStart + word archive (header.numbersPlace place + 4))
          (header.dataStart + word archive (header.numbersPlace place + 4) +
            word archive (header.numbersPlace place + 8))).length =
          word archive (header.numbersPlace place + 8) :=
        Nat.add_left_cancel carried.stop_eq.symm
      refine ⟨size, ?_⟩
      rw [size]
      exact carried

theorem readRecord_of_readRecords {entries : List ArchiveEntry}
    (read : readRecords header archive index place count = .ok entries) :
    entries.length = count ∧ ∀ more entry, entries[more]? = some entry →
      readRecord header archive (index + more) ((nextPlace header)^[more] place) = .ok entry := by
  induction count generalizing index place entries with
  | zero =>
      obtain rfl := Except.ok.inj read
      simp
  | succ count ih =>
      obtain ⟨first, here, read⟩ := bind_eq_ok_iff.mp read
      obtain ⟨rest, later, read⟩ := bind_eq_ok_iff.mp read
      obtain rfl := Except.ok.inj read
      obtain ⟨counted, each⟩ := ih later
      refine ⟨congrArg (· + 1) counted, fun more entry found => ?_⟩
      cases more with
      | zero =>
          obtain rfl := Option.some.inj found
          exact here
      | succ more =>
          have held := each more entry found
          rwa [Nat.add_assoc, Nat.add_comm 1] at held

theorem readHeader_eq_error {contents : Bytes}
    (refused : readHeader contents.toArray = .error fault) :
    fault.IsMismatch ∨
      magic <+: contents ∧ contents.length < 24 ∧ fault = .shortHeader 4 20 contents.length := by
  unfold readHeader at refused
  split at refused
  next =>
    cases refused
    exact Or.inl ⟨_, _, rfl⟩
  next started =>
    rw [Bool.not_eq_true', Bool.not_eq_false, magic_isPrefixOf_slice] at started
    split at refused
    next short =>
      cases refused
      exact Or.inr ⟨started, short, rfl⟩
    next => cases refused

theorem refused_of_read (refused : read data = .error fault) :
    fault.IsMismatch ∨ Wrapper.IsCorrupt data fault ∨ Wrapper.IsCut data fault ∨
      IsCut data fault := by
  obtain early | ⟨contents, unwrapped, refused⟩ := bind_eq_error_iff.mp refused
  · obtain mismatch | corrupt | cut := Wrapper.refused_of_contents early
    · exact Or.inl mismatch
    · exact Or.inr (Or.inl corrupt)
    · exact Or.inr (Or.inr (Or.inl cut))
  · obtain opening | ⟨header, _, refused⟩ := bind_eq_error_iff.mp refused
    · obtain mismatch | ⟨started, short, same⟩ := readHeader_eq_error opening
      · exact Or.inl mismatch
      · exact Or.inr (Or.inr (Or.inr ⟨contents, unwrapped, started, short, same⟩))
    · exact Or.inl (isMismatch_of_readRecords refused)

theorem read_of_isCut (cut : IsCut data fault) : read data = .error fault := by
  obtain ⟨contents, unwrapped, started, short, rfl⟩ := cut
  have opening : readHeader contents.toArray = .error (.shortHeader 4 20 contents.length) := by
    rw [readHeader, magic_isPrefixOf_slice.mpr started]
    exact if_pos short
  refine bind_eq_error_iff.mpr (Or.inr ⟨contents, unwrapped, ?_⟩)
  exact bind_eq_error_iff.mpr (Or.inl opening)

/-- Unwrapping and reading an archive succeed, or are refused for the layout, for a corrupt stream,
or for a header that is cut, which is no refusal of either kind. Every file that is read has the
size that its record states. -/
theorem read_returns_or_refused (data : Bytes) :
    ((∃ contents, Wrapper.contents data = .ok contents) ∨
      ∃ fault, Wrapper.contents data = .error fault ∧
        (fault.IsMismatch ∨ Wrapper.IsCorrupt data fault ∨ Wrapper.IsCut data fault)) ∧
    ((∃ entries, read data = .ok entries) ∨
      ∃ fault, read data = .error fault ∧
        (fault.IsMismatch ∨ Wrapper.IsCorrupt data fault ∨ Wrapper.IsCut data fault ∨
          IsCut data fault)) ∧
    (∀ fault, Wrapper.IsCut data fault →
      Wrapper.contents data = .error fault ∧ read data = .error fault) ∧
    (∀ fault, IsCut data fault → read data = .error fault) ∧
    ∀ entries, read data = .ok entries → ∃ contents header,
      Wrapper.contents data = .ok contents ∧ readHeader contents.toArray = .ok header ∧
        entries.length = header.fileCount ∧ ∀ index entry, entries[index]? = some entry →
          entry.contents.length = header.statedSize contents.toArray index ∧
          Buffer.Carries contents.toArray (header.statedStart contents.toArray index)
            (header.statedStart contents.toArray index + header.statedSize contents.toArray index)
            entry.contents := by
  refine ⟨?_, ?_, fun fault cut => ?_, fun fault => read_of_isCut, fun entries done => ?_⟩
  · cases found : Wrapper.contents data with
    | error fault => exact Or.inr ⟨fault, rfl, Wrapper.refused_of_contents found⟩
    | ok contents => exact Or.inl ⟨contents, rfl⟩
  · cases found : read data with
    | error fault => exact Or.inr ⟨fault, rfl, refused_of_read found⟩
    | ok entries => exact Or.inl ⟨entries, rfl⟩
  · have early := Wrapper.contents_of_isCut cut
    exact ⟨early, bind_eq_error_iff.mpr (Or.inl early)⟩
  · obtain ⟨contents, unwrapped, done⟩ := bind_eq_ok_iff.mp done
    obtain ⟨header, opening, done⟩ := bind_eq_ok_iff.mp done
    obtain ⟨counted, each⟩ := readRecord_of_readRecords done
    refine ⟨contents, header, unwrapped, opening, counted, fun index entry found => ?_⟩
    obtain ⟨size, carried⟩ := contents_of_readRecord (each index entry found)
    rw [size] at carried
    exact ⟨size, carried⟩

/-- An archive with one file of two bytes, which has a number only. -/
def numbered : Bytes :=
  magic ++ words [0x30, 0x32, 1, 2, 0] ++ Bytes.filled 0 8 ++ words [7, 0, 2, 9] ++ [1, 2]

theorem read_returns_or_refused_numbered :
    Wrapper.contents Wrapper.zcmp.magic = .error (.shortHeader 4 8 4) ∧
      read (numbered.take 23) = .error (.shortHeader 4 20 23) ∧
      ∃ entry, read numbered = .ok [entry] ∧ entry.contents.length = 2 := by
  have cut : Wrapper.IsCut Wrapper.zcmp.magic (.shortHeader 4 8 4) :=
    ⟨.zcmp, rfl, by decide, rfl⟩
  have plain : IsCut (numbered.take 23) (.shortHeader 4 20 23) :=
    ⟨numbered.take 23, rfl, ⟨(numbered.take 23).drop 4, rfl⟩, by decide, rfl⟩
  have whole : read numbered = .ok [⟨none, 7, 9, [1, 2]⟩] := rfl
  refine ⟨((read_returns_or_refused _).2.2.1 _ cut).1,
    (read_returns_or_refused _).2.2.2.1 _ plain, _, whole, ?_⟩
  obtain ⟨contents, header, unwrapped, opening, _, each⟩ :=
    (read_returns_or_refused numbered).2.2.2.2 _ whole
  obtain rfl := Except.ok.inj unwrapped
  obtain rfl := Except.ok.inj opening
  exact (each 0 _ rfl).1

/-- The refusals that speak of the layout or of a corrupt stream. -/
def IsReported (fault : Fault) : Prop :=
  fault.IsMismatch ∨ ∃ cause, fault = .stream cause

theorem not_forall_isReported :
    (¬ ∀ data fault, Wrapper.contents data = .error fault → IsReported fault) ∧
      ¬ ∀ data fault, read data = .error fault → IsReported fault := by
  have unreported (offset length size : Nat) : ¬ IsReported (.shortHeader offset length size) := by
    rintro (⟨_, _, same⟩ | ⟨_, same⟩) <;> cases same
  refine ⟨fun every => ?_, fun every => ?_⟩
  · exact unreported 4 8 4 (every Wrapper.zcmp.magic _ rfl)
  · exact unreported 4 20 4 (every magic _ rfl)

end Archive

end FighterData
