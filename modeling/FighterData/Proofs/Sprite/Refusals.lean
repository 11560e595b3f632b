import FighterData.Proofs.PointerTable.Refusals
import FighterData.Proofs.Sprite.Scan

/-! How an array of sprites is refused. The scan for the end of the last sprite is bounded by the
end of its section and not by the end of the file; where the section is said to reach behind the
file, the scan can be left with fewer bytes than it needs to judge one more place. That is the only
refusal here that is no fault of the format. -/
namespace FighterData.Sprite

variable {buffer : Buffer} {table : PointerTable}

theorem terminatorSize_eq_error_iff {scanned : Bytes} {fault : Fault} :
    terminatorSize scanned = .error fault ↔ scanned.length < 4 ∧ fault = .shortBuffer 4 := by
  have last : (Bytes.lastBytes scanned 4).length < 4 ↔ scanned.length < 4 := by
    simp only [Bytes.lastBytes, List.length_drop]
    omega
  simp only [terminatorSize]
  split
  next filled =>
    simp only [Bool.and_eq_true, decide_eq_true_eq] at filled
    have length : (Bytes.lastBytes scanned fillSize).length = fillSize := filled.1
    simp only [Bytes.lastBytes, List.length_drop, fillSize] at length
    constructor
    · intro refused
      cases refused
    · intro short
      omega
  next =>
    split
    next short => simp [last.mp short, eq_comm]
    next long => simp [mt last.mpr long]

theorem length_window (buffer : Buffer) (start next : Nat) :
    (window buffer start next).length = min next buffer.size - max start (next - fillSize) := by
  simp only [window, Array.length_toList, Array.size_extract]

/-- A scan is refused after the last place before its limit, or at the first place that it cannot
judge. -/
theorem scanWithin_eq_error {start position words : Nat} {limit : Int} {fault : Fault}
    (refused : scanWithin buffer start limit position words = .error fault) :
    fault = .noTerminator start limit ∨
      fault = .shortBuffer 4 ∧
        ∃ index < words, (window buffer start (position + 4 * (index + 1))).length < 4 := by
  induction words generalizing position with
  | zero => exact Or.inl (Except.error.inj refused).symm
  | succ words ih =>
      rw [scanWithin, ← window] at refused
      cases judged : terminatorSize (window buffer start (position + 4)) with
      | error cause =>
          obtain ⟨short, rfl⟩ := terminatorSize_eq_error_iff.mp judged
          rw [judged] at refused
          exact Or.inr ⟨(Except.error.inj refused).symm, 0, Nat.succ_pos words, short⟩
      | ok size =>
          rw [judged] at refused
          by_cases more : size = 0
          · have behind : scanWithin buffer start limit (position + 4) words = .error fault := by
              simpa [bind, Except.bind, more] using refused
            obtain none | ⟨cause, index, below, short⟩ := ih behind
            · exact Or.inl none
            · have place : position + 4 + 4 * (index + 1) = position + 4 * (index + 1 + 1) := by
                omega
              rw [place] at short
              exact Or.inr ⟨cause, index + 1, Nat.succ_lt_succ below, short⟩
          · simp [bind, Except.bind, more, pure, Except.pure] at refused

/-- The scan runs out of bytes only when its limit is behind the file. -/
theorem findEnd_eq_error {start : Nat} {limit : Int} {fault : Fault}
    (inside : start ≤ buffer.size) (refused : findEnd buffer start limit = .error fault) :
    fault = .noTerminator start limit ∨ fault = .shortBuffer 4 ∧ (buffer.size : Int) < limit := by
  obtain none | ⟨cause, index, below, short⟩ := scanWithin_eq_error refused
  · exact Or.inl none
  · rw [length_window, fillSize] at short
    exact Or.inr ⟨cause, by omega⟩

/-- The scan of a section that ends at `stop`, behind the file, has come to the end of the file. -/
def RunsOut (buffer : Buffer) (stop : Int) (fault : Fault) : Prop :=
  fault = .shortBuffer 4 ∧ (buffer.size : Int) < stop ∧
    ∃ body ≤ buffer.size, findEnd buffer body stop = .error fault

theorem readBounded_refusesOnly {start stop : Int} {slot : Nat}
    (inside : slot + 1 < table.offsets.length) :
    (readBounded table start stop slot).RefusesOnly buffer Fault.IsFormat := by
  have held : slot < table.offsets.length := Nat.lt_of_succ_lt inside
  have resolved (fault : Fault) :
      table.resolve slot (stop - start) = .error fault → fault.IsFormat :=
    PointerTable.isFormat_of_resolve held
  have offset (fault : Fault) : table.get slot = .error fault → fault.IsFormat :=
    PointerTable.isFormat_of_get held
  have following (fault : Fault) : table.get (slot + 1) = .error fault → fault.IsFormat :=
    PointerTable.isFormat_of_get inside
  refine (Reader.refusesOnly_lift resolved).bind fun span => ?_
  dsimp only
  split
  · refine (Reader.refusesOnly_lift offset).bind fun _ => ?_
    refine (Reader.refusesOnly_lift following).bind fun _ => ?_
    exact Reader.refusesOnly_refuse_bind rfl
  · split
    · exact Reader.refusesOnly_refuse_bind rfl
    · refine (Reader.seek_refusesOnly _).bind fun _ => ?_
      refine (Reader.fields_refusesOnly _).bind fun _ => ?_
      exact (Reader.bytes_refusesOnly _).bind fun _ => Reader.refusesOnly_pure _

theorem readLast_refusesOnly {start stop : Int} {slot : Nat}
    (inside : slot < table.offsets.length) :
    (readLast table start stop slot).RefusesOnly buffer
      fun fault => fault.IsFormat ∨ RunsOut buffer stop fault := by
  have resolved (fault : Fault) :
      table.resolve slot (stop - start) = .error fault → fault.IsFormat :=
    PointerTable.isFormat_of_resolve inside
  refine ((Reader.refusesOnly_lift resolved).mono fun _ => Or.inl).bind fun span => ?_
  refine ((Reader.seek_refusesOnly _).mono fun _ => Or.inl).bind fun _ => ?_
  refine ((Reader.fields_refusesOnly _).mono fun _ => Or.inl).bind_position
    fun _ header body read => ?_
  refine Reader.refusesOnly_buffer.bind_of_reads fun _ held _ same => ?_
  obtain ⟨rfl, _⟩ := Reader.reads_buffer_iff.mp same
  have within : body ≤ held.size := by
    obtain ⟨_, _, carried⟩ := Reader.reads_fields_iff.mp read
    exact carried.stop_le
  have searched (fault : Fault) (refused : findEnd held body stop = .error fault) :
      fault.IsFormat ∨ RunsOut held stop fault := by
    obtain rfl | ⟨rfl, behind⟩ := findEnd_eq_error within refused
    · exact Or.inl rfl
    · exact Or.inr ⟨rfl, behind, body, within, refused⟩
  refine (Reader.refusesOnly_lift searched).bind fun found => ?_
  refine ((Reader.expectGap_refusesOnly _ _ _ _).mono fun _ => Or.inl).bind fun _ => ?_
  exact (Reader.refusesOnly_note _).bind fun _ => Reader.refusesOnly_pure _

/-- An array of sprites is refused for a fault of the format, or its last scan has come to the end
of the file. -/
theorem readArray_refusesOnly (start stop : Int) :
    (readArray start stop).RefusesOnly buffer
      fun fault => fault.IsFormat ∨ RunsOut buffer stop fault := by
  refine ((PointerTable.read_refusesOnly _ _).mono fun _ => Or.inl).bind fun table => ?_
  split
  next =>
    refine ((EntryArray.expectEmpty_refusesOnly _ _ _).mono fun _ => Or.inl).bind fun _ => ?_
    exact Reader.refusesOnly_pure _
  next last count =>
    have bounded : (Reader.forEach (readBounded table start stop) (List.range last)).RefusesOnly
        buffer Fault.IsFormat := by
      refine Reader.RefusesOnly.forEach fun slot member => readBounded_refusesOnly ?_
      have below := List.mem_range.mp member
      omega
    refine (bounded.mono fun _ => Or.inl).bind fun _ => ?_
    exact (readLast_refusesOnly (by omega)).bind fun _ => Reader.refusesOnly_pure _

end FighterData.Sprite
