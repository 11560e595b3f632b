import FighterData.Reader.Success

/-! How a read is refused. `Reader.Refuses` relates a reader to the fault and to the position where
it stopped. A chain of reads is refused by its first part, or by the rest after the first part has
succeeded; a single read that is refused has not moved. -/
namespace FighterData.Reader

variable {α β : Type} {buffer : Buffer} {start stop : Nat} {fault : Fault}

/-- The reader is refused at `start` with this fault, and stops at `stop`. -/
def Refuses (reader : Reader α) (buffer : Buffer) (start : Nat) (fault : Fault) (stop : Nat) :
    Prop :=
  (reader.run buffer start).result = .error fault ∧ (reader.run buffer start).position = stop

theorem reads_or_refuses (reader : Reader α) (buffer : Buffer) (start : Nat) :
    (∃ a stop, reader.Reads buffer start a stop) ∨
      ∃ fault stop, reader.Refuses buffer start fault stop := by
  cases found : (reader.run buffer start).result with
  | error fault => exact Or.inr ⟨fault, _, found, rfl⟩
  | ok a => exact Or.inl ⟨a, _, found, rfl⟩

theorem not_refuses_pure {a : α} : ¬ (pure a : Reader α).Refuses buffer start fault stop := by
  simp [Refuses, run, pure, value]

theorem refuses_bind_iff {first : Reader α} {next : α → Reader β} :
    (first >>= next).Refuses buffer start fault stop ↔
      first.Refuses buffer start fault stop ∨
        ∃ a middle, first.Reads buffer start a middle ∧
          (next a).Refuses buffer middle fault stop := by
  cases found : first buffer start with
  | mk result middle notes =>
      cases result with
      | error cause => simp [Refuses, Reads, run, bind, andThen, found]
      | ok a =>
          simp only [Refuses, Reads, run, bind, andThen, found, Except.ok.injEq, reduceCtorEq,
            false_and, false_or]
          constructor
          · intro refused
            exact ⟨a, middle, ⟨rfl, rfl⟩, refused⟩
          · rintro ⟨_, _, ⟨rfl, rfl⟩, refused⟩
            exact refused

theorem refuses_map_iff {f : α → β} {reader : Reader α} :
    (f <$> reader).Refuses buffer start fault stop ↔ reader.Refuses buffer start fault stop := by
  rw [map_eq_pure_bind, refuses_bind_iff]
  simp [not_refuses_pure]

theorem refuses_refuse_iff {cause : Fault} :
    (refuse cause : Reader α).Refuses buffer start fault stop ↔ fault = cause ∧ stop = start := by
  simp [Refuses, run, refuse, eq_comm]

theorem refuses_lift_iff {result : Except Fault α} :
    (lift result).Refuses buffer start fault stop ↔ result = .error fault ∧ stop = start := by
  simp [Refuses, run, lift, eq_comm]

theorem refuses_seek_iff {target : Int} :
    (seek target).Refuses buffer start fault stop ↔
      (target < 0 ∨ buffer.size < target) ∧
        fault = .mismatch (.offsetOutside target buffer.size) none ∧ stop = start := by
  by_cases outside : target < 0 ∨ buffer.size < target
  · simp [Refuses, run, seek, outside, eq_comm]
  · simp [Refuses, run, seek, outside]

theorem refuses_bytes_iff {count : Int} :
    (bytes count).Refuses buffer start fault stop ↔
      (count < 0 ∨ (buffer.size : Int) < start + count) ∧
        fault = .mismatch (.shortRead count (buffer.size - start)) (some start) ∧
          stop = start := by
  by_cases short : count < 0 ∨ (buffer.size : Int) < start + count
  · simp [Refuses, run, bytes, short, eq_comm]
  · simp [Refuses, run, bytes, short]

theorem refuses_field_iff {width : Width} {order : ByteOrder} :
    (field width order).Refuses buffer start fault stop ↔
      (bytes width.size).Refuses buffer start fault stop := by
  simp [field, refuses_map_iff]

theorem refuses_fields_iff {layout : Layout} :
    (fields layout).Refuses buffer start fault stop ↔
      (bytes layout.size).Refuses buffer start fault stop := by
  simp [fields, refuses_map_iff]

theorem refuses_byte_iff :
    byte.Refuses buffer start fault stop ↔ (bytes 1).Refuses buffer start fault stop := by
  simp [byte, refuses_map_iff]

theorem refuses_peek_iff :
    peek.Refuses buffer start fault stop ↔
      buffer[start]? = none ∧ fault = .mismatch .endOfData (some start) ∧ stop = start := by
  cases found : buffer[start]? with
  | none => simp [Refuses, run, peek, found, eq_comm]
  | some held => simp [Refuses, run, peek, found]

theorem not_refuses_position : ¬ position.Refuses buffer start fault stop := by
  simp [Refuses, run, position]

theorem not_refuses_note {entry : Note} : ¬ (note entry).Refuses buffer start fault stop := by
  simp [Refuses, run, note]

theorem not_refuses_region {first last : Int} :
    ¬ (region first last).Refuses buffer start fault stop := by
  simp [Refuses, run, region]

theorem refuses_expectGap_iff {first last : Int} {accepts : Bytes → Bool} {what : String} :
    (expectGap first last accepts what).Refuses buffer start fault stop ↔
      stop = start ∧
        if last < first then fault = .mismatch (.overrun what) (some last)
        else accepts (buffer.extract first.toNat last.toNat).toList = false ∧
          fault = .leftover what first last := by
  unfold expectGap
  split
  next overrun =>
    simp only [refuses_bind_iff, refuses_refuse_iff, not_reads_refuse, false_and, exists_false,
      or_false]
    exact and_comm
  next inOrder =>
    simp only [refuses_bind_iff, not_refuses_region, false_or, reads_region_iff]
    constructor
    · rintro ⟨gap, _, ⟨rfl, rfl⟩, checked⟩
      split at checked
      next rejected =>
        obtain ⟨rfl, rfl⟩ := refuses_refuse_iff.mp checked
        exact ⟨rfl, by simpa using rejected, rfl⟩
      next => exact absurd checked not_refuses_pure
    · rintro ⟨rfl, rejected, rfl⟩
      refine ⟨_, stop, ⟨rfl, rfl⟩, ?_⟩
      rw [if_pos (by rw [rejected]; decide)]
      exact refuses_refuse_iff.mpr ⟨rfl, rfl⟩

/-- Items up to the last one are refused where an item is, behind items that are not the last. -/
theorem refuses_upToLast_iff {item : Reader α} (advances : item.Advances) {isLast : α → Bool} :
    (upToLast item isLast).Refuses buffer start fault stop ↔
      item.Refuses buffer start fault stop ∨
        ∃ a middle, item.Reads buffer start a middle ∧ isLast a = false ∧
          (upToLast item isLast).Refuses buffer middle fault stop := by
  conv => lhs; rw [upToLast_eq advances]
  rw [refuses_bind_iff]
  refine or_congr_right (exists_congr fun a => exists_congr fun middle => and_congr_right fun _ => ?_)
  unfold lastOr
  split
  next last => simp [not_refuses_pure, last]
  next more => simp [refuses_map_iff, more]

end FighterData.Reader
