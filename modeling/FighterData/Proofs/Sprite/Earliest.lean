import FighterData.Proofs.Sprite.Refusals
import Mathlib.Order.Lattice.Nat

/-! The end of a sprite, said without a window. What closes a payload is judged by its last eight bytes,
so the scan could as well look at everything behind the header. It finds the earliest place that closes
the payload, and nothing behind that place has a say in it. -/
namespace FighterData

/-- The last bytes of the last bytes are the last bytes. -/
theorem Bytes.lastBytes_lastBytes (data : Bytes) {count more : Nat} (order : count ≤ more) :
    lastBytes (lastBytes data more) count = lastBytes data count := by
  simp only [lastBytes, List.drop_drop, List.length_drop]
  congr 1
  omega

namespace Sprite

variable {buffer : Buffer} {start limit count size : Nat} {payload terminator : Bytes}

/-- The first `count` words behind `start`. -/
def scanned (buffer : Buffer) (start count : Nat) : Bytes :=
  (buffer.extract start (start + 4 * count)).toList

/-- The numbers of words that close a payload before the limit. -/
def closings (buffer : Buffer) (start limit : Nat) : Set Nat :=
  { count | 1 ≤ count ∧ start + 4 * count ≤ limit ∧
    ∃ size, terminatorSize (scanned buffer start count) = .ok size ∧ 0 < size }

section Judging

theorem length_scanned (inside : start + 4 * count ≤ buffer.size) :
    (scanned buffer start count).length = 4 * count := by
  simp only [scanned, Array.length_toList, Array.size_extract]
  omega

/-- No more than the last eight bytes are looked at. -/
theorem terminatorSize_lastBytes (data : Bytes) :
    terminatorSize (Bytes.lastBytes data fillSize) = terminatorSize data := by
  have tail := Bytes.lastBytes_lastBytes data (Nat.le_refl fillSize)
  have word := Bytes.lastBytes_lastBytes data (show 4 ≤ fillSize by decide)
  simp only [terminatorSize, tail, word]

theorem window_eq_lastBytes (inside : start + 4 * count ≤ buffer.size) :
    window buffer start (start + 4 * count) =
      Bytes.lastBytes (scanned buffer start count) fillSize := by
  have place : max start (start + 4 * count - fillSize) = start + (4 * count - fillSize) := by omega
  have cut : Bytes.lastBytes (scanned buffer start count) fillSize =
      ((buffer.extract start (start + 4 * count)).extract (4 * count - fillSize)
        (4 * count)).toList := by
    rw [Bytes.lastBytes, length_scanned inside, Array.toList_extract, List.extract_eq_take_drop,
      List.take_of_length_le]
    · rfl
    · rw [List.length_drop]
      exact Nat.le_of_eq (congrArg (· - _) (length_scanned inside))
  rw [cut, window, Array.extract_extract, place, Nat.min_self]

/-- The window tells the same as everything that has been scanned. -/
theorem terminatorSize_window (inside : start + 4 * count ≤ buffer.size) :
    terminatorSize (window buffer start (start + 4 * count)) =
      terminatorSize (scanned buffer start count) := by
  rw [window_eq_lastBytes inside, terminatorSize_lastBytes]

/-- Whole words can always be judged. -/
theorem exists_terminatorSize (some : 1 ≤ count) (inside : start + 4 * count ≤ buffer.size) :
    ∃ size, terminatorSize (scanned buffer start count) = .ok size := by
  have length := length_scanned inside
  cases judged : terminatorSize (scanned buffer start count) with
  | ok size => exact ⟨size, rfl⟩
  | error fault =>
      have short := (terminatorSize_eq_error_iff.mp judged).1
      omega

theorem terminatorSize_eq {data : Bytes} (judged : terminatorSize data = .ok size) :
    size = 0 ∨ size = 4 ∨ size = 8 := by
  simp only [terminatorSize] at judged
  split at judged
  next => exact Or.inr (Or.inr (Except.ok.inj judged).symm)
  next =>
    split at judged
    next => cases judged
    next =>
      have judged := Except.ok.inj judged
      split at judged <;> omega

end Judging

section Searching

/-- Where a payload is cut: behind the first `count` words, of which the terminator takes as many bytes
as close them. -/
structure CutAt (buffer : Buffer) (start count : Nat) (payload terminator : Bytes) : Prop where
  whole : payload ++ terminator = scanned buffer start count
  judged : terminatorSize (scanned buffer start count) = .ok terminator.length
  size : terminator.length = 4 ∨ terminator.length = 8
  aligned : 4 ∣ payload.length

theorem carries_scanned (inside : start + 4 * count ≤ buffer.size) :
    buffer.Carries start (start + 4 * count) (scanned buffer start count) :=
  Buffer.carries_extract (Nat.le_add_right _ _) inside

/-- Both parts of the scanned words, in terms of where the second one starts. -/
theorem append_eq_scanned_iff (inside : start + 4 * count ≤ buffer.size) (room : size ≤ 4 * count) :
    payload ++ terminator = scanned buffer start count ∧ terminator.length = size ↔
      payload = (buffer.extract start (start + 4 * count - size)).toList ∧
        terminator = (buffer.extract (start + 4 * count - size) (start + 4 * count)).toList := by
  constructor
  · rintro ⟨whole, rfl⟩
    have carried := carries_scanned inside
    rw [← whole] at carried
    have total := carried.stop_eq
    rw [List.length_append] at total
    obtain ⟨middle, first, second⟩ := Buffer.carries_append_iff.mp carried
    have place : middle = start + 4 * count - terminator.length := by
      have ends := first.stop_eq
      omega
    rw [← place]
    exact ⟨first.eq_extract, second.eq_extract⟩
  · rintro ⟨rfl, rfl⟩
    have first := @Buffer.carries_extract buffer start (start + 4 * count - size) (by omega) (by omega)
    have second := @Buffer.carries_extract buffer (start + 4 * count - size) (start + 4 * count)
      (by omega) inside
    have length := second.stop_eq
    exact ⟨(first.append second).eq_extract, by omega⟩

theorem cutAt_iff (inside : start + 4 * count ≤ buffer.size)
    (judged : terminatorSize (scanned buffer start count) = .ok size) (some : 0 < size) :
    CutAt buffer start count payload terminator ↔
      payload = (buffer.extract start (start + 4 * count - size)).toList ∧
        terminator = (buffer.extract (start + 4 * count - size) (start + 4 * count)).toList := by
  have length := length_scanned inside
  have room := terminatorSize_le judged
  rw [length] at room
  rw [← append_eq_scanned_iff inside room]
  constructor
  · intro cut
    exact ⟨cut.whole, Except.ok.inj (cut.judged.symm.trans judged)⟩
  · rintro ⟨whole, rfl⟩
    have parts := congrArg List.length whole
    rw [List.length_append, length] at parts
    have sizes := terminatorSize_eq judged
    exact ⟨whole, judged, by omega, by omega⟩

/-- The scan succeeds at the smallest number of words that closes the payload, and cuts it there. -/
theorem findEnd_eq_ok_iff_isLeast (inside : limit ≤ buffer.size) :
    findEnd buffer start limit = .ok (payload, terminator) ↔
      ∃ count, IsLeast (closings buffer start limit) count ∧
        CutAt buffer start count payload terminator := by
  have below (index : Nat) :
      index < ((limit - start : Int) / 4).toNat ↔ start + 4 * (index + 1) ≤ limit := by omega
  rw [findEnd, scanWithin_eq_ok_iff]
  constructor
  · rintro ⟨index, size, within, before, closing, positive, halves⟩
    have room := (below index).mp within
    have some := Nat.pos_of_ne_zero positive
    rw [terminatorSize_window (by omega)] at closing
    refine ⟨index + 1, ⟨⟨by omega, room, size, closing, some⟩, ?_⟩,
      (cutAt_iff (by omega) closing some).mpr halves⟩
    rintro count ⟨lower, upper, other, judged, larger⟩
    refine Nat.le_of_not_lt fun earlier => ?_
    obtain ⟨count, rfl⟩ : ∃ words, count = words + 1 := ⟨count - 1, by omega⟩
    have none := before count (by omega)
    rw [terminatorSize_window (by omega), judged] at none
    have zero := Except.ok.inj none
    omega
  · rintro ⟨count, ⟨⟨lower, upper, size, closing, some⟩, least⟩, cut⟩
    obtain ⟨index, rfl⟩ : ∃ words, count = words + 1 := ⟨count - 1, by omega⟩
    refine ⟨index, size, (below index).mpr upper, ?_, ?_, Nat.ne_of_gt some,
      (cutAt_iff (by omega) closing some).mp cut⟩
    · intro earlier before
      rw [terminatorSize_window (by omega)]
      obtain ⟨other, judged⟩ := @exists_terminatorSize buffer start (earlier + 1) (by omega) (by omega)
      obtain rfl | larger := Nat.eq_zero_or_pos other
      · exact judged
      · have member := least ⟨by omega, by omega, other, judged, larger⟩
        omega
    · rw [terminatorSize_window (by omega)]
      exact closing

/-- The least number of closing words decides what is found. -/
theorem exists_found_of_isLeast (inside : limit ≤ buffer.size)
    (least : IsLeast (closings buffer start limit) count) :
    ∃ payload terminator, CutAt buffer start count payload terminator ∧
      findEnd buffer start limit = .ok (payload, terminator) := by
  obtain ⟨_, upper, size, closing, some⟩ := least.1
  have cut := (cutAt_iff (by omega) closing some).mpr ⟨rfl, rfl⟩
  exact ⟨_, _, cut, (findEnd_eq_ok_iff_isLeast inside).mpr ⟨count, least, cut⟩⟩

/-- What has been found is found wherever the same bytes stand, however far the scan may go. -/
theorem findEnd_of_carries {other : Buffer} {place stop last : Nat} (inside : limit ≤ buffer.size)
    (found : findEnd buffer start limit = .ok (payload, terminator))
    (carried : other.Carries place stop (payload ++ terminator)) (further : stop ≤ last)
    (within : last ≤ other.size) : findEnd other place last = .ok (payload, terminator) := by
  obtain ⟨_, _, _, ends⟩ := (findEnd_eq_ok_iff inside).mp found
  exact (findEnd_eq_ok_iff within).mpr ⟨stop, further, carried, ends⟩

/-- A buffer that agrees up to a place carries the same bytes before it. -/
theorem carries_of_agrees {other : Buffer} {stop : Nat} {data : Bytes}
    (carried : buffer.Carries start stop data) (within : stop ≤ other.size)
    (agrees : ∀ place < stop, other[place]? = buffer[place]?) : other.Carries start stop data := by
  have inside := carried.stop_le
  have same : buffer.extract start stop = other.extract start stop := by
    refine Array.ext_getElem? fun index => ?_
    rw [Array.getElem?_extract, Array.getElem?_extract, Nat.min_eq_left inside,
      Nat.min_eq_left within]
    split
    · exact (agrees _ (by omega)).symm
    · rfl
  refine Buffer.carries_iff.mpr ⟨carried.start_le, within, ?_⟩
  rw [carried.eq_extract, same]

/-- The scan finds the earliest place where everything scanned so far closes a payload, or it finds none
and says so. What it finds depends on nothing behind that place: not on the bytes there, not on the
limit, and the payload with its terminator is cut the same way alone. -/
theorem findEnd_earliest (buffer : Buffer) {start limit : Nat} (order : start ≤ limit)
    (inside : limit ≤ buffer.size) :
    (∀ count, 1 ≤ count → start + 4 * count ≤ limit →
      ∃ size, terminatorSize (scanned buffer start count) = .ok size ∧
        terminatorSize (window buffer start (start + 4 * count)) = .ok size) ∧
    ((∃ found, findEnd buffer start limit = .ok found) ↔ (closings buffer start limit).Nonempty) ∧
    (∀ count, IsLeast (closings buffer start limit) count → ∃ payload terminator,
      findEnd buffer start limit = .ok (payload, terminator) ∧
        CutAt buffer start count payload terminator ∧ Ends payload terminator ∧
        ∀ (other : Buffer) (last : Nat),
          (∀ place < start + 4 * count, other[place]? = buffer[place]?) →
            start + 4 * count ≤ last → last ≤ other.size →
              findEnd other start last = .ok (payload, terminator)) ∧
    (¬ (closings buffer start limit).Nonempty →
      findEnd buffer start limit = .error (.noTerminator start limit)) := by
  have found_iff : (∃ found, findEnd buffer start limit = .ok found) ↔
      (closings buffer start limit).Nonempty := by
    constructor
    · rintro ⟨⟨payload, terminator⟩, found⟩
      obtain ⟨count, least, _⟩ := (findEnd_eq_ok_iff_isLeast inside).mp found
      exact ⟨count, least.1⟩
    · intro some
      obtain ⟨_, _, _, found⟩ := exists_found_of_isLeast inside (isLeast_csInf some)
      exact ⟨_, found⟩
  refine ⟨?_, found_iff, ?_, ?_⟩
  · intro count some room
    obtain ⟨size, judged⟩ := @exists_terminatorSize buffer start count some (by omega)
    exact ⟨size, judged, (terminatorSize_window (by omega)).trans judged⟩
  · intro count least
    have upper := least.1.2.1
    obtain ⟨payload, terminator, cut, found⟩ := exists_found_of_isLeast inside least
    obtain ⟨_, _, _, ends⟩ := (findEnd_eq_ok_iff inside).mp found
    refine ⟨payload, terminator, found, cut, ends, fun other last agrees further within => ?_⟩
    have carried := @carries_scanned buffer start count (by omega)
    rw [← cut.whole] at carried
    exact findEnd_of_carries inside found (carries_of_agrees carried (by omega) agrees) further within
  · intro none
    cases result : findEnd buffer start limit with
    | ok found => exact absurd (found_iff.mp ⟨found, result⟩) none
    | error fault =>
        obtain rfl | ⟨_, behind⟩ := findEnd_eq_error (by omega) result
        · rfl
        · omega

/-- Two words behind a header, the second of which closes the payload, and an odd byte. -/
def wordEnded : Buffer :=
  #[9, 9, 1, 2, 3, 4, 4, 0, 4, 0, 7]

theorem findEnd_earliest_wordEnded :
    2 ≤ 10 ∧ 10 ≤ wordEnded.size ∧ IsLeast (closings wordEnded 2 10) 2 ∧
      findEnd wordEnded 2 10 = .ok ([1, 2, 3, 4], [4, 0, 4, 0]) ∧
      findEnd (wordEnded.take 10 ++ Array.replicate 8 0) 2 18 = .ok ([1, 2, 3, 4], [4, 0, 4, 0]) ∧
      ¬ (closings wordEnded 2 6).Nonempty ∧
      findEnd wordEnded 2 6 = .error (.noTerminator 2 6) := by
  have least : IsLeast (closings wordEnded 2 10) 2 := by
    refine ⟨⟨by decide, by decide, 4, rfl, by decide⟩, ?_⟩
    rintro count ⟨lower, _, size, judged, some⟩
    refine Nat.le_of_not_lt fun below => ?_
    obtain rfl : count = 1 := by omega
    cases judged
    cases some
  have none : ¬ (closings wordEnded 2 6).Nonempty := by
    rintro ⟨count, lower, upper, size, judged, some⟩
    obtain rfl : count = 1 := by omega
    cases judged
    cases some
  have whole := findEnd_earliest wordEnded (show 2 ≤ 10 by decide) (show 10 ≤ 11 by decide)
  have short := findEnd_earliest wordEnded (show 2 ≤ 6 by decide) (show 6 ≤ 11 by decide)
  obtain ⟨payload, terminator, found, _, _, further⟩ := whole.2.2.1 2 least
  have same : (payload, terminator) = ([1, 2, 3, 4], [4, 0, 4, 0]) :=
    Except.ok.inj (found.symm.trans rfl)
  rw [same] at found further
  refine ⟨by decide, by decide, least, found, ?_, none, short.2.2.2 none⟩
  exact further _ 18 (by decide) (by decide) (by decide)

end Searching

end Sprite

end FighterData
