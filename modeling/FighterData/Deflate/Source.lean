import FighterData.Deflate.Bits
import FighterData.Fault

/-! The unread part of a compressed stream. A stream that ends within a number is truncated. Stored
bytes start at a full byte, so a byte that has been started is kept apart from those behind it. -/
namespace FighterData.Deflate

/-- The bits that are left of a byte, and the bytes behind it. -/
structure Source where
  part : Bits
  bytes : Bytes

namespace Source

def bits (source : Source) : Bits :=
  source.part ++ bitsOf source.bytes

/-- The next bit and what is left behind it, or nothing at the end. -/
@[inline] def next? (source : Source) : Option (Bool × Source) :=
  match source.part, source.bytes with
  | bit :: part, bytes => some (bit, ⟨part, bytes⟩)
  | [], byte :: bytes => some (byte.toNat.testBit 0, ⟨numberBits 7 (byte.toNat / 2), bytes⟩)
  | [], [] => none

theorem next?_cons (bit : Bool) (part : Bits) (bytes : Bytes) :
    next? ⟨bit :: part, bytes⟩ = some (bit, ⟨part, bytes⟩) := rfl

theorem bits_of_next? {source rest : Source} {bit : Bool} (read : source.next? = some (bit, rest)) :
    source.bits = bit :: rest.bits := by
  obtain ⟨part, bytes⟩ := source
  match part, bytes with
  | first :: part, bytes =>
      simp only [next?, Option.some.injEq, Prod.mk.injEq] at read
      obtain ⟨rfl, rfl⟩ := read
      rfl
  | [], byte :: bytes =>
      simp only [next?, Option.some.injEq, Prod.mk.injEq] at read
      obtain ⟨rfl, rfl⟩ := read
      rw [bits, List.nil_append, bitsOf, List.flatMap_cons, byteBits, numberBits_succ]
      rfl
  | [], [] => simp [next?] at read

theorem next?_eq_none_iff {source : Source} : source.next? = none ↔ source.bits = [] := by
  obtain ⟨part, bytes⟩ := source
  match part, bytes with
  | first :: part, bytes => simp [next?, bits]
  | [], byte :: bytes => simp [next?, bits, bitsOf, byteBits, numberBits_succ]
  | [], [] => simp [next?, bits, bitsOf]

/-- The number in the next `count` bits, and what is left behind it. -/
def number : Nat → Source → Except StreamFault (Nat × Source)
  | 0, source => .ok (0, source)
  | count + 1, source =>
      match source.next? with
      | none => .error .truncated
      | some (bit, source) => do
          let (high, source) ← number count source
          return (bit.toNat + 2 * high, source)

theorem number_numberBits (count value : Nat) (part : Bits) (bytes : Bytes) :
    number count ⟨numberBits count value ++ part, bytes⟩ = .ok (value % 1 <<< count, ⟨part, bytes⟩) := by
  induction count generalizing value with
  | zero => simp [number, numberBits, Nat.mod_one]
  | succ count ih =>
      have step : value % 1 <<< (count + 1) = value % 2 + 2 * (value / 2 % 1 <<< count) := by
        rw [Nat.shiftLeft_succ, Nat.mod_mul]
      have low : (value.testBit 0).toNat = value % 2 := by
        rw [Nat.testBit_zero]
        rcases Nat.mod_two_eq_zero_or_one value with even | odd
        · simp [even]
        · simp [odd]
      rw [numberBits_succ, List.cons_append, number, next?_cons]
      simp only [ih]
      rw [step, ← low]
      rfl

end Source

/-- The next `count` bytes, added to what has come before. -/
def bytesOnto (out : Array UInt8) : Nat → Bytes → Except StreamFault (Array UInt8 × Bytes)
  | 0, data => .ok (out, data)
  | _ + 1, [] => .error .truncated
  | count + 1, byte :: data => bytesOnto (out.push byte) count data

theorem bytesOnto_append (data : Bytes) (out : Array UInt8) (rest : Bytes) :
    bytesOnto out data.length (data ++ rest) = .ok (out ++ data.toArray, rest) := by
  induction data generalizing out with
  | nil => simp [bytesOnto]
  | cons byte data ih => simp [bytesOnto, ih]

end FighterData.Deflate
