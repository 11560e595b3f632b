/-! Byte strings. A number is held least significant byte first, so that appending zero
bytes does not change it; the other order is the reverse of the same bytes. -/
namespace FighterData

abbrev Bytes := List UInt8

/-- The same bytes, when they are looked at out of order. -/
abbrev Buffer := Array UInt8

namespace Bytes

/-- The first `width` bytes of `value`, least significant first. -/
def ofNat : (width value : Nat) → Bytes
  | 0, _ => []
  | width + 1, value => UInt8.ofNat value :: ofNat width (value / 256)

def toNat : Bytes → Nat
  | [] => 0
  | byte :: rest => byte.toNat + 256 * toNat rest

@[simp] theorem length_ofNat (width value : Nat) : (ofNat width value).length = width := by
  induction width generalizing value with
  | zero => rfl
  | succ width ih => simp [ofNat, ih]

/-- How many numbers `width` bytes can spell. -/
def span : Nat → Nat
  | 0 => 1
  | width + 1 => 256 * span width

theorem toNat_ofNat (width value : Nat) : toNat (ofNat width value) = value % span width := by
  induction width generalizing value with
  | zero => simp [ofNat, toNat, span, Nat.mod_one]
  | succ width ih =>
      have step : value % span (width + 1) = value % 256 + 256 * (value / 256 % span width) :=
        Nat.mod_mul
      simp [ofNat, toNat, ih, step]

theorem toNat_lt (data : Bytes) : toNat data < span data.length := by
  induction data with
  | nil => simp [toNat, span]
  | cons byte rest ih =>
      have bound := byte.toNat_lt
      simp only [toNat, List.length_cons, span]
      omega

theorem ofNat_toNat (data : Bytes) : ofNat data.length (toNat data) = data := by
  induction data with
  | nil => rfl
  | cons byte rest ih =>
      have bound := byte.toNat_lt
      have head : UInt8.ofNat (byte.toNat + 256 * toNat rest) = byte := by
        apply UInt8.toNat_inj.mp
        simp
      have tail : (byte.toNat + 256 * toNat rest) / 256 = toNat rest := by omega
      simp only [List.length_cons, toNat, ofNat, head, tail, ih]

/-- The bytes from `start` up to `stop`, cut at the end of the data. -/
def slice (data : Bytes) (start stop : Nat) : Bytes :=
  (data.drop start).take (stop - start)

/-- The last `count` bytes, or all of them when there are fewer. -/
def lastBytes (data : Bytes) (count : Nat) : Bytes :=
  data.drop (data.length - count)

def filled (fill : UInt8) (count : Nat) : Bytes :=
  List.replicate count fill

@[simp] theorem length_filled (fill : UInt8) (count : Nat) : (filled fill count).length = count :=
  List.length_replicate

def isFilled (fill : UInt8) (data : Bytes) : Bool :=
  data.all (· == fill)

theorem isFilled_iff {fill : UInt8} {data : Bytes} :
    isFilled fill data = true ↔ data = filled fill data.length := by
  simp [isFilled, filled, List.eq_replicate_iff]

/-- Whether the first `count` bytes are all the fill byte. -/
def startsFilled (fill : UInt8) : Nat → Bytes → Bool
  | 0, _ => true
  | _ + 1, [] => false
  | count + 1, byte :: rest => byte == fill && startsFilled fill count rest

theorem startsFilled_iff {fill : UInt8} {count : Nat} {data : Bytes} :
    startsFilled fill count data = true ↔ filled fill count <+: data := by
  induction count generalizing data with
  | zero => simp [startsFilled, filled]
  | succ count ih =>
      have step : filled fill (count + 1) = fill :: filled fill count := List.replicate_succ
      cases data with
      | nil => simp [startsFilled, step]
      | cons byte rest =>
          rw [startsFilled, step, Bool.and_eq_true, beq_iff_eq, ih, List.cons_prefix_cons,
            @eq_comm _ byte]

def firstRunFrom (fill : UInt8) (count place : Nat) : Bytes → Option Nat
  | [] => if count = 0 then some place else none
  | byte :: rest =>
      if startsFilled fill count (byte :: rest) then some place
      else firstRunFrom fill count (place + 1) rest

/-- Where the first run of `count` fill bytes starts, however many more of them follow. -/
def firstRun? (fill : UInt8) (count : Nat) (data : Bytes) : Option Nat :=
  firstRunFrom fill count 0 data

theorem firstRunFrom_eq_some_iff {fill : UInt8} {count place found : Nat} {data : Bytes} :
    firstRunFrom fill count place data = some found ↔
      ∃ before, found = place + before ∧ filled fill count <+: data.drop before ∧
        ∀ earlier < before, ¬ filled fill count <+: data.drop earlier := by
  induction data generalizing place with
  | nil =>
      have empty : filled fill count = [] ↔ count = 0 := by simp [filled]
      simp only [firstRunFrom, List.drop_nil, List.prefix_nil, empty]
      constructor
      · intro ended
        split at ended
        next none => exact ⟨0, (Option.some.inj ended).symm, none, by simp⟩
        next => cases ended
      · intro stands
        obtain ⟨before, rfl, none, first⟩ := stands
        cases before with
        | zero => rw [if_pos none, Nat.add_zero]
        | succ before => exact absurd none (first 0 (by omega))
  | cons byte rest ih =>
      rw [firstRunFrom]
      split
      next here =>
        have stands := startsFilled_iff.mp here
        constructor
        · intro same
          exact ⟨0, (Option.some.inj same).symm, stands, by simp⟩
        · intro found
          obtain ⟨before, rfl, _, first⟩ := found
          cases before with
          | zero => rfl
          | succ before => exact absurd stands (first 0 (by omega))
      next later =>
        rw [startsFilled_iff] at later
        rw [ih]
        constructor
        · intro found
          obtain ⟨before, rfl, stands, first⟩ := found
          refine ⟨before + 1, by omega, stands, fun earlier bound => ?_⟩
          cases earlier with
          | zero => exact later
          | succ earlier => exact first earlier (by omega)
        · intro found
          obtain ⟨before, rfl, stands, first⟩ := found
          cases before with
          | zero => exact absurd stands later
          | succ before =>
              exact ⟨before, by omega, stands, fun earlier bound => first (earlier + 1) (by omega)⟩

theorem firstRun?_eq_some_iff {fill : UInt8} {count place : Nat} {data : Bytes} :
    firstRun? fill count data = some place ↔ filled fill count <+: data.drop place ∧
      ∀ earlier < place, ¬ filled fill count <+: data.drop earlier := by
  simp [firstRun?, firstRunFrom_eq_some_iff]

def firstMismatchFrom (offset : Nat) : Bytes → Bytes → Option Nat
  | [], [] => none
  | [], _ :: _ => some offset
  | _ :: _, [] => some offset
  | a :: as, b :: bs => if a = b then firstMismatchFrom (offset + 1) as bs else some offset

/-- Where two byte strings part: at the first byte that differs, or where the shorter one ends. -/
def firstMismatch (a b : Bytes) : Option Nat :=
  firstMismatchFrom 0 a b

theorem firstMismatchFrom_eq_none_iff {offset : Nat} {a b : Bytes} :
    firstMismatchFrom offset a b = none ↔ a = b := by
  induction a generalizing offset b with
  | nil => cases b <;> simp [firstMismatchFrom]
  | cons x xs ih =>
      cases b with
      | nil => simp [firstMismatchFrom]
      | cons y ys =>
          by_cases same : x = y
          · simp [firstMismatchFrom, same, ih]
          · simp [firstMismatchFrom, same]

theorem firstMismatch_eq_none_iff {a b : Bytes} : firstMismatch a b = none ↔ a = b :=
  firstMismatchFrom_eq_none_iff

end Bytes

end FighterData
