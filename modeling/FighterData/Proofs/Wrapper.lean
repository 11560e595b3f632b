import FighterData.Proofs.Reading
import FighterData.Proofs.Record
import FighterData.Wrapper
import FighterData.Zlib.Lossless
import FighterData.Zlib.Size

/-! Wrapping and unwrapping. The two magic texts differ in length, and the zeros behind the sizes
make up for it, so the stream starts at the same place behind either of them. A wrapper is refused
only for a size that no word holds. -/
namespace FighterData.Wrapper

/-- Both sizes fit their words. -/
structure SizesFit (data : Bytes) : Prop where
  contents : data.length < 0x100000000
  stream : (Zlib.compress data).length < 0x100000000

def sizes (data : Bytes) : List Int :=
  [data.length, (Zlib.compress data).length]

def bytes (wrapper : Wrapper) (data : Bytes) : Bytes :=
  wrapper.magic ++ (sizesLayout.spell (sizes data) ++
    (Bytes.filled 0 (8 - wrapper.magic.length) ++ Zlib.compress data))

variable {wrapper : Wrapper} {data packed : Bytes}

theorem holds_size_iff {size : Nat} : Width.u32.holds size = true ↔ size < 0x100000000 := by
  rw [Width.holds_u32_iff]
  constructor
  · rintro ⟨number, same, below⟩
    omega
  · intro below
    exact ⟨size, rfl, below⟩

theorem holds_sizes_iff : sizesLayout.holds (sizes data) = true ↔ SizesFit data := by
  simp only [sizes, sizesLayout, Layout.holds, Bool.and_true, Bool.and_eq_true, holds_size_iff]
  exact ⟨fun fits => ⟨fits.1, fits.2⟩, fun fits => ⟨fits.contents, fits.stream⟩⟩

theorem length_spell_sizes (data : Bytes) : (sizesLayout.spell (sizes data)).length = 8 :=
  Layout.length_spell_of_exact rfl

theorem length_magic_le (wrapper : Wrapper) : wrapper.magic.length ≤ 8 := by
  cases wrapper <;> decide

theorem wrap_eq_ok_iff :
    wrapper.wrap data = .ok packed ↔ SizesFit data ∧ packed = wrapper.bytes data := by
  have fill : headerSize - (wrapper.magic ++ sizesLayout.spell (sizes data)).length =
      8 - wrapper.magic.length := by
    rw [List.length_append, length_spell_sizes, headerSize]
    omega
  have encoded (spelled : Bytes) : sizesLayout.encode [data.length, (Zlib.compress data).length] =
      .ok spelled ↔ SizesFit data ∧ spelled = sizesLayout.spell (sizes data) := by
    rw [← holds_sizes_iff]
    exact Layout.encode_eq_ok_iff
  simp only [wrap, bind_eq_ok_iff, encoded, pure, Except.pure, Except.ok.injEq]
  constructor
  · rintro ⟨_, ⟨fits, rfl⟩, rfl⟩
    rw [fill]
    simp only [bytes, List.append_assoc, and_true, fits]
  · rintro ⟨fits, rfl⟩
    refine ⟨_, ⟨fits, rfl⟩, ?_⟩
    rw [fill]
    simp only [bytes, List.append_assoc]

theorem detect_bytes (wrapper : Wrapper) (data : Bytes) :
    detect (wrapper.bytes data) = some wrapper :=
  detect_append wrapper _

theorem toNat_encode {size : Nat} (fits : size < 0x100000000) :
    Bytes.toNat (Width.u32.encode size) = size := by
  have same : (Bytes.toNat (Width.u32.encode size) : Int) = size :=
    Width.decode_encode (holds_size_iff.mpr fits)
  exact Int.ofNat.inj same

theorem readSizes_bytes (fits : SizesFit data) :
    wrapper.readSizes (wrapper.bytes data) = .ok (data.length, (Zlib.compress data).length) := by
  have small := length_magic_le wrapper
  have spelled : sizesLayout.spell (sizes data) =
      Width.u32.encode data.length ++ Width.u32.encode (Zlib.compress data).length := by
    simp [sizesLayout, sizes, Layout.spell]
  have long : ¬ (wrapper.bytes data).length < wrapper.magic.length + sizesLayout.size := by
    simp only [bytes, List.length_append, length_spell_sizes]
    show ¬ _ < wrapper.magic.length + 8
    omega
  have first : Bytes.slice (wrapper.bytes data) wrapper.magic.length (wrapper.magic.length + 4) =
      Width.u32.encode data.length := by
    rw [bytes, spelled, List.append_assoc]
    exact Bytes.slice_append rfl (by rw [Width.length_encode]; rfl)
  have second : Bytes.slice (wrapper.bytes data) (wrapper.magic.length + 4)
      (wrapper.magic.length + 8) = Width.u32.encode (Zlib.compress data).length := by
    rw [bytes, spelled, List.append_assoc, ← List.append_assoc]
    refine Bytes.slice_append ?_ (by rw [Width.length_encode]; rfl)
    rw [List.length_append, Width.length_encode]
    rfl
  simp only [readSizes, if_neg long, first, second, toNat_encode fits.contents,
    toNat_encode fits.stream]

theorem stream_bytes (wrapper : Wrapper) (data : Bytes) :
    Bytes.slice (wrapper.bytes data) headerSize (headerSize + (Zlib.compress data).length) =
      Zlib.compress data := by
  have small := length_magic_le wrapper
  have split : wrapper.bytes data = (wrapper.magic ++ (sizesLayout.spell (sizes data) ++
      Bytes.filled 0 (8 - wrapper.magic.length))) ++ (Zlib.compress data ++ []) := by
    simp only [bytes, List.append_assoc, List.append_nil]
  rw [split]
  refine Bytes.slice_append ?_ rfl
  simp only [List.length_append, length_spell_sizes, Bytes.length_filled, headerSize]
  omega

/-- What was wrapped is unwrapped. -/
theorem contents_bytes (fits : SizesFit data) : contents (wrapper.bytes data) = .ok data := by
  have unpacked : (Except.ok data).mapError Fault.stream = .ok data := rfl
  rw [contents, detect_bytes]
  simp only [unwrap, readSizes_bytes fits, bind, Except.bind, stream_bytes, ne_eq, not_true,
    if_false, Zlib.decompress_compress, unpacked]
  rfl

/-- A byte string whose first byte is a multiple of 16 starts with no magic. -/
theorem detect_of_aligned {byte : UInt8} {rest : Bytes} (aligned : byte.toNat % 16 = 0) :
    detect (byte :: rest) = none := by
  have first : byte ≠ 0x5A := by
    rintro rfl
    exact absurd aligned (by decide)
  have second : byte ≠ 0x44 := by
    rintro rfl
    exact absurd aligned (by decide)
  simp [detect, magic, List.isPrefixOf, first.symm, second.symm]

theorem contents_of_detect (plain : detect data = none) : contents data = .ok data := by
  rw [contents, plain]

theorem sizesFit_of_bound (short : Zlib.bound data.length < 0x100000000) : SizesFit data where
  contents := by
    unfold Zlib.bound at short
    omega
  stream := Nat.lt_of_le_of_lt (Zlib.length_compress_le data) short

end FighterData.Wrapper
