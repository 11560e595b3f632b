import FighterData.Zlib

/-! Compression loses nothing: a tight stream is only used if it reads back, and a stream of stored
blocks always does. -/
namespace FighterData

namespace Deflate

theorem toNat_ofNat_two {value : Nat} (fits : value < 65536) :
    Bytes.toNat (Bytes.ofNat 2 value) = value := by
  rw [Bytes.toNat_ofNat]
  exact Nat.mod_eq_of_lt fits

theorem storedBlock_eq {data : Bytes} (fits : data.length < 65536) (out : Array UInt8) (part : Bits)
    (rest : Bytes) :
    storedBlock out ⟨part, Bytes.ofNat 2 data.length
        ++ (Bytes.ofNat 2 (0xFFFF - data.length) ++ (data ++ rest))⟩
      = .ok (out ++ data.toArray, ⟨[], rest⟩) := by
  have size := toNat_ofNat_two fits
  have complement := @toNat_ofNat_two (0xFFFF - data.length) (by omega)
  have sum : data.length + (0xFFFF - data.length) = 0xFFFF := by omega
  simp only [Bytes.ofNat] at size complement
  simp only [Bytes.ofNat, List.cons_append, List.nil_append, storedBlock, size, complement, sum,
    ne_eq, not_true, if_false, bytesOnto_append]
  rfl

/-- The bits of a header byte that are left behind the flag and the kind. -/
def restOfByte : Bits := List.replicate 5 false

theorem number_storedFlag (final : Bool) (bytes : Bytes) :
    Source.number 1 ⟨[], (if final then 1 else 0) :: bytes⟩
      = .ok (final.toNat, ⟨numberBits 2 0 ++ restOfByte, bytes⟩) := by
  cases final <;> rfl

theorem blocks_storedBlock {data : Bytes} (fits : data.length < 65536) (final : Bool)
    (limit budget : Nat) (out : Array UInt8) (rest : Bytes) :
    blocks limit (budget + 1) out ⟨[], storedHeader final data.length ++ data ++ rest⟩
      = if final then .ok (out ++ data.toArray, ⟨[], rest⟩)
        else blocks limit budget (out ++ data.toArray) ⟨[], rest⟩ := by
  have read := storedBlock_eq fits out restOfByte rest
  simp only [storedHeader, List.cons_append, List.append_assoc]
  simp only [blocks, number_storedFlag, bind, Except.bind]
  rw [Source.number_numberBits]
  simp only [Nat.zero_mod, block, read]
  cases final <;> rfl

theorem blocks_storedFrom {full : Nat} {data : Bytes} (lower : full * largestBlock ≤ data.length)
    (upper : data.length ≤ (full + 1) * largestBlock) (limit : Nat) {budget : Nat}
    (enough : full < budget) (out : Array UInt8) (rest : Bytes) :
    blocks limit budget out ⟨[], storedFrom full data ++ rest⟩
      = .ok (out ++ data.toArray, ⟨[], rest⟩) := by
  induction full generalizing data budget out with
  | zero =>
      obtain ⟨budget, rfl⟩ : ∃ less, budget = less + 1 := ⟨budget - 1, by omega⟩
      have fits : data.length < 65536 := by
        simp only [largestBlock] at upper
        omega
      rw [storedFrom, blocks_storedBlock fits true limit budget out rest]
      rfl
  | succ full ih =>
      obtain ⟨budget, rfl⟩ : ∃ less, budget = less + 1 := ⟨budget - 1, by omega⟩
      have here : (full + 1) * largestBlock = full * largestBlock + largestBlock :=
        Nat.succ_mul full largestBlock
      have next : (full + 1 + 1) * largestBlock = (full + 1) * largestBlock + largestBlock :=
        Nat.succ_mul (full + 1) largestBlock
      have size : (data.take largestBlock).length = largestBlock := by
        rw [List.length_take]
        omega
      have fits : (data.take largestBlock).length < 65536 := by
        rw [size]
        simp [largestBlock]
      have restLower : full * largestBlock ≤ (data.drop largestBlock).length := by
        rw [List.length_drop]
        omega
      have restUpper : (data.drop largestBlock).length ≤ (full + 1) * largestBlock := by
        rw [List.length_drop]
        omega
      have left : full < budget := by omega
      have first := blocks_storedBlock fits false limit budget out
        (storedFrom full (data.drop largestBlock) ++ rest)
      have others := ih restLower restUpper left (out ++ (data.take largestBlock).toArray)
      rw [size] at first
      rw [storedFrom, List.append_assoc, first, if_neg (by simp), others]
      simp

theorem lt_length_storedFrom (full : Nat) (data : Bytes) : full < (storedFrom full data).length := by
  induction full generalizing data with
  | zero => simp [storedFrom, storedHeader]
  | succ full ih =>
      have rest := ih (data.drop largestBlock)
      simp only [storedFrom, storedHeader, List.length_append, List.length_cons, Bytes.length_ofNat]
      omega

theorem inflate_stored (data rest : Bytes) :
    inflate (stored data ++ rest) = .ok (data.toArray, rest) := by
  have enough := lt_length_storedFrom ((data.length - 1) / largestBlock) data
  have lower : (data.length - 1) / largestBlock * largestBlock ≤ data.length := by
    have parts := Nat.div_mul_le_self (data.length - 1) largestBlock
    omega
  have upper : data.length ≤ ((data.length - 1) / largestBlock + 1) * largestBlock := by
    simp only [largestBlock]
    omega
  rw [inflate, stored, blocks_storedFrom lower upper]
  · simp [bind, Except.bind, pure, Except.pure]
  · rw [List.length_append]
    omega

end Deflate

namespace Zlib
open Deflate

theorem checksum_lt (data : Bytes) : checksum data < 0x100000000 := by
  have bound : ∀ (sums : Nat × Nat), sums.1 < 65521 ∧ sums.2 < 65521 →
      (data.foldl checksumStep sums).1 < 65521 ∧ (data.foldl checksumStep sums).2 < 65521 := by
    induction data with
    | nil => exact fun _ small => small
    | cons byte rest ih =>
        intro sums _
        exact ih _ ⟨Nat.mod_lt _ (by decide), Nat.mod_lt _ (by decide)⟩
  have small := bound (1, 0) (by decide)
  simp only [checksum]
  omega

theorem checkHeader_framed (rest : Bytes) : checkHeader 0x78 0xDA rest = .ok () := by
  have plain : Nat.testBit 218 5 = false := by decide
  simp [checkHeader, plain]

theorem decompress_store (data : Bytes) : decompress (store data) = .ok data := by
  have header := checkHeader_framed (stored data ++ (Bytes.ofNat 4 (checksum data)).reverse)
  have read := bytesOnto_append (Bytes.ofNat 4 (checksum data)).reverse #[] []
  have same : Bytes.toNat (Bytes.ofNat 4 (checksum data)) = checksum data := by
    rw [Bytes.toNat_ofNat, Nat.mod_eq_of_lt]
    exact checksum_lt data
  rw [List.length_reverse, Bytes.length_ofNat, List.append_nil] at read
  simp only [store, framed, decompress, List.cons_append, header, inflate_stored, bind, Except.bind,
    read]
  simp [same]

theorem decompress_compress (data : Bytes) : decompress (compress data) = .ok data := by
  simp only [compress]
  split
  next kept =>
    obtain ⟨same, _⟩ := kept
    cases read : decompress (framed data (deflate data.toArray)) with
    | error fault => simp [read, Except.toOption] at same
    | ok found =>
        rw [read] at same
        simpa [Except.toOption] using same
  next => exact decompress_store data

end Zlib

end FighterData
