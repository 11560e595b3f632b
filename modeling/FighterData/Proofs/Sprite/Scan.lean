import FighterData.Sprite
import FighterData.Proofs.Reading

/-! The end of the last sprite. The scan stops at the first multiple of four bytes whose window
closes the payload, and no window reaches behind that place, so the same end is found in the
payload and its terminator alone. -/
namespace FighterData.Sprite

/-- The bytes before `next` that decide whether the payload from `start` ends there. -/
def window (buffer : Buffer) (start next : Nat) : Bytes :=
  (buffer.extract (max start (next - fillSize)) next).toList

theorem terminatorSize_le {scanned : Bytes} {size : Nat}
    (judged : terminatorSize scanned = .ok size) : size ≤ scanned.length := by
  simp only [terminatorSize] at judged
  split at judged
  next filled =>
    obtain rfl := Except.ok.inj judged
    simp only [Bool.and_eq_true, decide_eq_true_eq] at filled
    have length : (Bytes.lastBytes scanned fillSize).length = fillSize := filled.1
    simp only [Bytes.lastBytes, List.length_drop] at length
    omega
  next =>
    split at judged
    next => cases judged
    next long =>
      have enough : 4 ≤ scanned.length := by
        simp only [Bytes.lastBytes, List.length_drop] at long
        omega
      have judged := Except.ok.inj judged
      split at judged <;> omega

theorem length_window_le (buffer : Buffer) {start next : Nat} (order : start ≤ next) :
    (window buffer start next).length ≤ next - start := by
  simp [window]
  omega

/-- The scan succeeds at the first place that closes the payload. -/
theorem scanWithin_eq_ok_iff {buffer : Buffer} {start position words : Nat} {limit : Int}
    {payload terminator : Bytes} :
    scanWithin buffer start limit position words = .ok (payload, terminator) ↔
      ∃ index size, index < words ∧
        (∀ earlier < index,
          terminatorSize (window buffer start (position + 4 * (earlier + 1))) = .ok 0) ∧
        terminatorSize (window buffer start (position + 4 * (index + 1))) = .ok size ∧ size ≠ 0 ∧
        payload = (buffer.extract start (position + 4 * (index + 1) - size)).toList ∧
        terminator = (buffer.extract (position + 4 * (index + 1) - size)
          (position + 4 * (index + 1))).toList := by
  induction words generalizing position with
  | zero =>
      constructor
      · intro refused
        cases refused
      · intro found
        obtain ⟨index, _, below, _⟩ := found
        omega
  | succ words ih =>
      have place (index : Nat) : position + 4 + 4 * (index + 1) = position + 4 * (index + 1 + 1) := by
        omega
      simp only [scanWithin, bind_eq_ok_iff]
      constructor
      · intro found
        obtain ⟨size, judged, rest⟩ := found
        by_cases more : size = 0
        · rw [if_pos more] at rest
          rw [more] at judged
          obtain ⟨index, last, below, before, closing, positive, halves⟩ := ih.mp rest
          simp only [place] at before closing halves
          refine ⟨index + 1, last, by omega, ?_, closing, positive, halves⟩
          intro earlier inside
          cases earlier with
          | zero => exact judged
          | succ earlier => exact before earlier (by omega)
        · rw [if_neg more] at rest
          obtain ⟨rfl, rfl⟩ := Prod.mk.inj (Except.ok.inj rest)
          refine ⟨0, size, by omega, ?_, judged, more, rfl, rfl⟩
          intro earlier inside
          omega
      · intro found
        obtain ⟨index, last, below, before, closing, positive, halves⟩ := found
        cases index with
        | zero =>
            refine ⟨last, closing, ?_⟩
            rw [if_neg positive, halves.1, halves.2]
            rfl
        | succ index =>
            refine ⟨0, before 0 (by omega), ?_⟩
            rw [if_pos rfl]
            refine ih.mpr ⟨index, last, by omega, ?_, ?_, positive, ?_⟩
            · intro earlier inside
              rw [place]
              exact before (earlier + 1) (by omega)
            · rw [place]
              exact closing
            · simp only [place]
              exact halves

/-- A payload and its terminator that the scan finds again when nothing else follows. -/
def Ends (payload terminator : Bytes) : Prop :=
  findEnd (payload ++ terminator).toArray 0 (payload ++ terminator).length
    = .ok (payload, terminator)

theorem window_of_carries {buffer : Buffer} {start finish next : Nat} {data : Bytes}
    (carried : buffer.Carries start finish data) (inside : next ≤ data.length) :
    window buffer start (start + next) = window data.toArray 0 next := by
  have ends := carried.stop_eq
  have same : data.toArray = buffer.extract start finish := by
    rw [carried.eq_extract]
  have first : start + max 0 (next - fillSize) = max start (start + next - fillSize) := by omega
  have last : min (start + next) finish = start + next := by omega
  rw [window, window, same, Array.extract_extract, first, last]

theorem extract_of_carries {buffer : Buffer} {start finish last : Nat} {data : Bytes}
    (first : Nat) (carried : buffer.Carries start finish data) (inside : last ≤ data.length) :
    (buffer.extract (start + first) (start + last)).toList =
      (data.toArray.extract first last).toList := by
  have ends := carried.stop_eq
  have same : data.toArray = buffer.extract start finish := by
    rw [carried.eq_extract]
  have stop : min (start + last) finish = start + last := by omega
  rw [same, Array.extract_extract, stop]

/-- What a scan finds, in terms of the bytes that it has passed. -/
theorem scanWithin_iff_of_carries {buffer : Buffer} {start finish words : Nat} (limit other : Int)
    {data payload terminator : Bytes} (carried : buffer.Carries start finish data)
    (inside : 4 * words ≤ data.length) :
    scanWithin buffer start limit start words = .ok (payload, terminator) ↔
      scanWithin data.toArray 0 other 0 words = .ok (payload, terminator) := by
  rw [scanWithin_eq_ok_iff, scanWithin_eq_ok_iff]
  have same (index : Nat) (below : index < words) :
      window buffer start (start + 4 * (index + 1)) =
        window data.toArray 0 (0 + 4 * (index + 1)) := by
    rw [Nat.zero_add]
    exact window_of_carries carried (by omega)
  have halves (index size : Nat) (below : index < words)
      (judged : terminatorSize (window data.toArray 0 (0 + 4 * (index + 1))) = .ok size) :
      (buffer.extract start (start + 4 * (index + 1) - size)).toList =
          (data.toArray.extract 0 (0 + 4 * (index + 1) - size)).toList ∧
        (buffer.extract (start + 4 * (index + 1) - size) (start + 4 * (index + 1))).toList =
          (data.toArray.extract (0 + 4 * (index + 1) - size) (0 + 4 * (index + 1))).toList := by
    have bound := terminatorSize_le judged
    have room := length_window_le data.toArray (Nat.zero_le (0 + 4 * (index + 1)))
    have split : start + 4 * (index + 1) - size = start + (0 + 4 * (index + 1) - size) := by omega
    have whole : start + 4 * (index + 1) = start + (0 + 4 * (index + 1)) := by omega
    rw [split, whole]
    have front := extract_of_carries 0 carried
      (show 0 + 4 * (index + 1) - size ≤ data.length by omega)
    exact ⟨front, extract_of_carries _ carried (by omega)⟩
  constructor
  · intro found
    obtain ⟨index, size, below, before, closing, positive, front, back⟩ := found
    rw [same index below] at closing
    have parts := halves index size below closing
    refine ⟨index, size, below, ?_, closing, positive, front.trans parts.1, back.trans parts.2⟩
    intro earlier inside
    rw [← same earlier (by omega)]
    exact before earlier inside
  · intro found
    obtain ⟨index, size, below, before, closing, positive, front, back⟩ := found
    have parts := halves index size below closing
    rw [← same index below] at closing
    refine ⟨index, size, below, ?_, closing, positive, front.trans parts.1.symm,
      back.trans parts.2.symm⟩
    intro earlier inside
    rw [same earlier (by omega)]
    exact before earlier inside

/-- More words to look at do not move the first end. -/
theorem scanWithin_mono {buffer : Buffer} {start position words more : Nat} {limit other : Int}
    {payload terminator : Bytes} (order : words ≤ more)
    (found : scanWithin buffer start limit position words = .ok (payload, terminator)) :
    scanWithin buffer start other position more = .ok (payload, terminator) := by
  obtain ⟨index, size, below, rest⟩ := scanWithin_eq_ok_iff.mp found
  exact scanWithin_eq_ok_iff.mpr ⟨index, size, by omega, rest⟩

/-- A scan that succeeds needs no more words than it returns. -/
theorem scanWithin_exact {buffer : Buffer} {start words : Nat} {limit : Int} (other : Int)
    {payload terminator : Bytes}
    (found : scanWithin buffer start limit start words = .ok (payload, terminator))
    (room : start + 4 * words ≤ buffer.size) :
    ∃ count, count ≤ words ∧ (payload ++ terminator).length = 4 * count ∧ terminator ≠ [] ∧
      buffer.Carries start (start + 4 * count) (payload ++ terminator) ∧
      scanWithin buffer start other start count = .ok (payload, terminator) := by
  obtain ⟨index, size, below, before, closing, positive, front, back⟩ := scanWithin_eq_ok_iff.mp found
  have bound := terminatorSize_le closing
  have window := length_window_le buffer (show start ≤ start + 4 * (index + 1) by omega)
  have first : buffer.Carries start (start + 4 * (index + 1) - size) payload := by
    rw [front]
    exact Buffer.carries_extract (by omega) (by omega)
  have second : buffer.Carries (start + 4 * (index + 1) - size) (start + 4 * (index + 1))
      terminator := by
    rw [back]
    exact Buffer.carries_extract (by omega) (by omega)
  have whole := first.append second
  have length := whole.stop_eq
  have some := second.stop_eq
  refine ⟨index + 1, below, by omega, ?_, whole, ?_⟩
  · intro none
    rw [none, List.length_nil] at some
    omega
  · exact scanWithin_eq_ok_iff.mpr
      ⟨index, size, Nat.lt_succ_self index, before, closing, positive, front, back⟩

theorem words_of_length {count : Nat} : (((4 * count : Nat) - (0 : Nat) : Int) / 4).toNat = count := by
  omega

/-- Within the buffer, an end is found exactly where a payload with its terminator is carried. -/
theorem findEnd_eq_ok_iff {buffer : Buffer} {start stop : Nat} (inside : stop ≤ buffer.size)
    {payload terminator : Bytes} :
    findEnd buffer start stop = .ok (payload, terminator) ↔
      ∃ finish ≤ stop, buffer.Carries start finish (payload ++ terminator) ∧
        Ends payload terminator := by
  constructor
  · intro found
    have some : 0 < ((stop - start : Int) / 4).toNat := by
      obtain ⟨index, _, below, _⟩ := scanWithin_eq_ok_iff.mp found
      omega
    obtain ⟨count, below, length, _, carried, again⟩ := scanWithin_exact 0 found (by omega)
    refine ⟨start + 4 * count, by omega, carried, ?_⟩
    rw [Ends, findEnd, length, words_of_length]
    exact (scanWithin_iff_of_carries _ _ carried (by omega)).mp again
  · intro found
    obtain ⟨finish, order, carried, ends⟩ := found
    have stopped := carried.stop_eq
    have alone : scanWithin (payload ++ terminator).toArray 0 (payload ++ terminator).length 0
        (((payload ++ terminator).length - (0 : Nat) : Int) / 4).toNat
          = .ok (payload, terminator) := ends
    have within := (scanWithin_iff_of_carries stop _ carried (by omega)).mpr alone
    exact scanWithin_mono (by omega) within

theorem Ends.terminator_ne_nil {payload terminator : Bytes} (ends : Ends payload terminator) :
    terminator ≠ [] := by
  have alone : scanWithin (payload ++ terminator).toArray 0 (payload ++ terminator).length 0
      (((payload ++ terminator).length - (0 : Nat) : Int) / 4).toNat
        = .ok (payload, terminator) := ends
  have room : 0 + 4 * (((payload ++ terminator).length - (0 : Nat) : Int) / 4).toNat ≤
      (payload ++ terminator).toArray.size := by
    simp only [List.size_toArray]
    omega
  obtain ⟨_, _, _, some, _⟩ := scanWithin_exact 0 alone room
  exact some

end FighterData.Sprite
