import FighterData.Reader

/-! What a successful read says about the buffer. `Buffer.Carries` names the bytes between two
positions. `Reader.Reads` relates a reader to its value and to the positions before and after it,
and leaves the notes aside, so that a compound reader splits into its parts. Fields and records
are read where the buffer carries their encoding, and nowhere else. -/
namespace FighterData

/-- Between the two positions the buffer holds exactly these bytes. -/
def Buffer.Carries (buffer : Buffer) (start stop : Nat) (data : Bytes) : Prop :=
  ∃ before behind, buffer.toList = before ++ data ++ behind ∧ before.length = start ∧
    stop = start + data.length

namespace Buffer

theorem carries_middle (before data behind : Bytes) :
    Carries (before ++ data ++ behind).toArray before.length (before.length + data.length) data :=
  ⟨before, behind, rfl, rfl, rfl⟩

theorem carries_append_iff {buffer : Buffer} {start stop : Nat} {first second : Bytes} :
    Carries buffer start stop (first ++ second) ↔
      ∃ middle, Carries buffer start middle first ∧ Carries buffer middle stop second := by
  constructor
  · rintro ⟨before, behind, whole, rfl, rfl⟩
    refine ⟨before.length + first.length, ⟨before, second ++ behind, by simp [whole], rfl, rfl⟩,
      before ++ first, behind, by simp [whole], by simp, by simp; omega⟩
  · rintro ⟨_, ⟨before, rest, whole, rfl, rfl⟩, joined, behind, again, place, rfl⟩
    have parts : before ++ first ++ rest = joined ++ (second ++ behind) := by
      rw [← whole, again, List.append_assoc]
    obtain ⟨rfl, rfl⟩ := List.append_inj parts (by simp [place])
    exact ⟨before, behind, by simp [whole], rfl, by simp; omega⟩

theorem Carries.stop_le {buffer : Buffer} {start stop : Nat} {data : Bytes}
    (carried : Carries buffer start stop data) : stop ≤ buffer.size := by
  obtain ⟨before, behind, whole, rfl, rfl⟩ := carried
  rw [← Array.length_toList, whole]
  simp

theorem Carries.stop_eq {buffer : Buffer} {start stop : Nat} {data : Bytes}
    (carried : Carries buffer start stop data) : stop = start + data.length := by
  obtain ⟨_, _, _, _, ends⟩ := carried
  exact ends

theorem carries_extract {buffer : Buffer} {start stop : Nat} (order : start ≤ stop)
    (inside : stop ≤ buffer.size) :
    Carries buffer start stop (buffer.extract start stop).toList := by
  have size : (buffer.extract start stop).toList.length = stop - start := by
    simp
    omega
  refine ⟨buffer.toList.take start, buffer.toList.drop stop, ?_, ?_, ?_⟩
  · rw [Array.toList_extract, List.extract_eq_take_drop, List.append_assoc]
    have joined : (buffer.toList.drop start).drop (stop - start) = buffer.toList.drop stop := by
      rw [List.drop_drop]
      congr 1
      omega
    rw [← joined, List.take_append_drop, List.take_append_drop]
  · simp
    omega
  · omega

theorem Carries.eq_extract {buffer : Buffer} {start stop : Nat} {data : Bytes}
    (carried : Carries buffer start stop data) : data = (buffer.extract start stop).toList := by
  obtain ⟨before, behind, whole, rfl, rfl⟩ := carried
  simp [whole, List.extract_eq_take_drop]

theorem carries_iff {buffer : Buffer} {start stop : Nat} {data : Bytes} :
    Carries buffer start stop data ↔
      start ≤ stop ∧ stop ≤ buffer.size ∧ data = (buffer.extract start stop).toList := by
  constructor
  · intro carried
    have ends := carried.stop_eq
    exact ⟨by omega, carried.stop_le, carried.eq_extract⟩
  · rintro ⟨order, inside, rfl⟩
    exact carries_extract order inside

end Buffer

namespace Reader

variable {α β : Type} {buffer : Buffer} {start stop : Nat}

instance : LawfulMonad Reader := LawfulMonad.mk' Reader
  (by
    intro α reader
    funext buffer position
    show andThen reader (value ∘ id) buffer position = reader buffer position
    unfold andThen
    split <;> simp_all [value])
  (by
    intro α β a next
    rfl)
  (by
    intro α β γ first second third
    funext buffer position
    show andThen (andThen first second) third buffer position
      = andThen first (fun a => andThen (second a) third) buffer position
    cases found : first buffer position with
    | mk result middle notes =>
        cases result with
        | error fault => simp [andThen, found]
        | ok a =>
            cases again : second a buffer middle with
            | mk result behind later =>
                cases result with
                | error fault => simp [andThen, found, again]
                | ok b => simp [andThen, found, again])

/-- The reader succeeds at `start` with this value, and stops at `stop`. -/
def Reads (reader : Reader α) (buffer : Buffer) (start : Nat) (a : α) (stop : Nat) : Prop :=
  (reader.run buffer start).result = .ok a ∧ (reader.run buffer start).position = stop

theorem reads_pure_iff {a b : α} :
    (pure a : Reader α).Reads buffer start b stop ↔ b = a ∧ stop = start := by
  simp [Reads, run, pure, value, eq_comm]

theorem reads_bind_iff {first : Reader α} {next : α → Reader β} {b : β} :
    (first >>= next).Reads buffer start b stop ↔
      ∃ a middle, first.Reads buffer start a middle ∧ (next a).Reads buffer middle b stop := by
  cases found : first buffer start with
  | mk result middle notes =>
      cases result with
      | error fault => simp [Reads, run, bind, andThen, found]
      | ok a =>
          simp only [Reads, run, bind, andThen, found, Except.ok.injEq]
          constructor
          · intro read
            exact ⟨a, middle, ⟨rfl, rfl⟩, read⟩
          · rintro ⟨_, _, ⟨rfl, rfl⟩, read⟩
            exact read

theorem not_reads_refuse {fault : Fault} {a : α} :
    ¬ (refuse fault : Reader α).Reads buffer start a stop := by
  simp [Reads, run, refuse]

theorem reads_lift_iff {result : Except Fault α} {a : α} :
    (lift result).Reads buffer start a stop ↔ result = .ok a ∧ stop = start := by
  simp [Reads, run, lift, eq_comm]

theorem reads_note_iff {entry : Note} {a : Unit} :
    (note entry).Reads buffer start a stop ↔ stop = start := by
  simp [Reads, run, note, eq_comm]

theorem reads_position_iff {place : Nat} :
    position.Reads buffer start place stop ↔ place = start ∧ stop = start := by
  simp [Reads, run, position, eq_comm]

theorem reads_size_iff {size : Nat} :
    Reader.size.Reads buffer start size stop ↔ size = buffer.size ∧ stop = start := by
  simp [Reads, run, Reader.size, eq_comm]

theorem reads_buffer_iff {held : Buffer} :
    Reader.buffer.Reads buffer start held stop ↔ held = buffer ∧ stop = start := by
  simp [Reads, run, Reader.buffer, eq_comm]

theorem reads_seek_iff {target : Int} {a : Unit} :
    (seek target).Reads buffer start a stop ↔ target = stop ∧ stop ≤ buffer.size := by
  by_cases outside : target < 0 ∨ buffer.size < target
  · simp only [Reads, run, seek, if_pos outside]
    constructor
    · rintro ⟨refused, _⟩
      cases refused
    · rintro ⟨rfl, inside⟩
      omega
  · simp only [Reads, run, seek, if_neg outside, true_and]
    omega

/-- A read of bytes succeeds where the buffer carries that many, and returns them. -/
theorem reads_bytes_iff {count : Int} {data : Bytes} :
    (bytes count).Reads buffer start data stop ↔
      count = data.length ∧ buffer.Carries start stop data := by
  by_cases short : count < 0 ∨ (buffer.size : Int) < start + count
  · simp only [Reads, run, bytes, if_pos short]
    constructor
    · rintro ⟨refused, _⟩
      cases refused
    · rintro ⟨rfl, carried⟩
      have inside := carried.stop_le
      have ends := carried.stop_eq
      omega
  · simp only [Reads, run, bytes, if_neg short, Except.ok.injEq]
    constructor
    · rintro ⟨rfl, rfl⟩
      have carried : buffer.Carries start (start + count.toNat)
          (buffer.extract start (start + count.toNat)).toList :=
        Buffer.carries_extract (by omega) (by omega)
      have ends := carried.stop_eq
      exact ⟨by omega, carried⟩
    · rintro ⟨rfl, carried⟩
      have ends := carried.stop_eq
      simp only [Int.toNat_natCast, ← ends]
      exact ⟨carried.eq_extract.symm, trivial⟩

theorem reads_field_iff {width : Width} {order : ByteOrder} {number : Int} :
    (field width order).Reads buffer start number stop ↔
      ∃ data, encodeField order width number = .ok data ∧ buffer.Carries start stop data := by
  unfold field
  simp only [reads_bind_iff, reads_bytes_iff, reads_pure_iff]
  constructor
  · rintro ⟨raw, middle, ⟨exact, carried⟩, rfl, rfl⟩
    exact ⟨raw, encodeField_decode order (by omega), carried⟩
  · rintro ⟨data, encoded, carried⟩
    have length := length_of_encodeField encoded
    exact ⟨data, stop, ⟨by omega, carried⟩, (decode_of_encodeField encoded).symm, rfl⟩

theorem reads_fields_iff {layout : Layout} {values : List Int} :
    (fields layout).Reads buffer start values stop ↔
      ∃ data, layout.encode values = .ok data ∧ buffer.Carries start stop data := by
  unfold fields
  simp only [reads_bind_iff, reads_bytes_iff, reads_pure_iff]
  constructor
  · rintro ⟨raw, middle, ⟨exact, carried⟩, rfl, rfl⟩
    exact ⟨raw, Layout.encode_decode (by omega), carried⟩
  · rintro ⟨data, encoded, carried⟩
    have length := Layout.length_of_encode encoded
    exact ⟨data, stop, ⟨by omega, carried⟩, (Layout.decode_of_encode encoded).symm, rfl⟩

theorem reads_byte_iff {code : UInt8} :
    byte.Reads buffer start code stop ↔ buffer.Carries start stop [code] := by
  unfold byte
  simp only [reads_bind_iff, reads_bytes_iff, reads_pure_iff]
  constructor
  · rintro ⟨raw, middle, ⟨exact, carried⟩, rfl, rfl⟩
    obtain ⟨only, rfl⟩ := List.length_eq_one_iff.mp (by omega : raw.length = 1)
    exact carried
  · intro carried
    exact ⟨[code], stop, ⟨rfl, carried⟩, rfl, rfl⟩

theorem reads_expect_iff {magic : Bytes} {what : String} {a : Unit} :
    (expect magic what).Reads buffer start a stop ↔ buffer.Carries start stop magic := by
  unfold expect
  simp only [reads_bind_iff, reads_bytes_iff, reads_position_iff]
  constructor
  · rintro ⟨_, _, ⟨rfl, rfl⟩, found, middle, ⟨_, carried⟩, checked⟩
    by_cases same : found = magic
    · rw [if_neg (by simp [same])] at checked
      obtain ⟨_, rfl⟩ := reads_pure_iff.mp checked
      rwa [← same]
    · rw [if_pos same] at checked
      exact absurd checked not_reads_refuse
  · intro carried
    exact ⟨start, start, ⟨rfl, rfl⟩, magic, stop, ⟨rfl, carried⟩, by simp [reads_pure_iff]⟩

theorem reads_peek_iff {next : UInt8} :
    peek.Reads buffer start next stop ↔ buffer[start]? = some next ∧ stop = start := by
  cases found : buffer[start]? with
  | none => simp [Reads, run, peek, found]
  | some held => simp [Reads, run, peek, found, eq_comm]

theorem reads_region_iff {first last : Int} {data : Bytes} :
    (region first last).Reads buffer start data stop ↔
      data = (buffer.extract first.toNat last.toNat).toList ∧ stop = start := by
  simp only [Reads, run, region, Except.ok.injEq]
  constructor <;> rintro ⟨rfl, rfl⟩ <;> exact ⟨rfl, rfl⟩

theorem reads_expectGap_iff {first last : Int} {accepts : Bytes → Bool} {what : String}
    {a : Unit} :
    (expectGap first last accepts what).Reads buffer start a stop ↔
      first ≤ last ∧ accepts (buffer.extract first.toNat last.toNat).toList = true ∧
        stop = start := by
  unfold expectGap
  split
  next overrun =>
    simp [reads_bind_iff, not_reads_refuse, Int.not_le.mpr overrun]
  next inOrder =>
    simp only [reads_bind_iff, reads_region_iff]
    constructor
    · rintro ⟨gap, _, ⟨rfl, rfl⟩, checked⟩
      split at checked
      next rejected => exact absurd checked not_reads_refuse
      next accepted =>
        obtain ⟨_, rfl⟩ := reads_pure_iff.mp checked
        exact ⟨by omega, by simpa using accepted, rfl⟩
    · rintro ⟨_, accepted, rfl⟩
      refine ⟨_, stop, ⟨rfl, rfl⟩, ?_⟩
      rw [if_neg (by rw [accepted]; decide)]
      exact reads_pure_iff.mpr ⟨rfl, rfl⟩

theorem reads_forEach_nil_iff {item : α → Reader β} {items : List β} :
    (forEach item []).Reads buffer start items stop ↔ items = [] ∧ stop = start :=
  reads_pure_iff

theorem reads_forEach_cons_iff {item : α → Reader β} {a : α} {rest : List α} {items : List β} :
    (forEach item (a :: rest)).Reads buffer start items stop ↔
      ∃ b others middle, items = b :: others ∧ (item a).Reads buffer start b middle ∧
        (forEach item rest).Reads buffer middle others stop := by
  simp only [forEach, reads_bind_iff, reads_pure_iff]
  constructor
  · rintro ⟨b, middle, first, others, _, behind, rfl, rfl⟩
    exact ⟨b, others, middle, rfl, first, behind⟩
  · rintro ⟨b, others, middle, rfl, first, behind⟩
    exact ⟨b, middle, first, others, stop, behind, rfl, rfl⟩

theorem reads_times_zero_iff {item : Reader α} {items : List α} :
    (times item 0).Reads buffer start items stop ↔ items = [] ∧ stop = start :=
  reads_pure_iff

theorem reads_times_succ_iff {item : Reader α} {count : Nat} {items : List α} :
    (times item (count + 1)).Reads buffer start items stop ↔
      ∃ a others middle, items = a :: others ∧ item.Reads buffer start a middle ∧
        (times item count).Reads buffer middle others stop := by
  simp only [times, reads_bind_iff, reads_pure_iff]
  constructor
  · rintro ⟨a, middle, first, others, _, behind, rfl, rfl⟩
    exact ⟨a, others, middle, rfl, first, behind⟩
  · rintro ⟨a, others, middle, rfl, first, behind⟩
    exact ⟨a, middle, first, others, stop, behind, rfl, rfl⟩

/-- Every success takes at least a byte of the buffer. -/
def Advances (item : Reader α) : Prop :=
  ∀ buffer start a stop, item.Reads buffer start a stop → start < stop ∧ stop ≤ buffer.size

theorem field_advances (width : Width) (order : ByteOrder) : (field width order).Advances := by
  intro buffer start number stop read
  obtain ⟨data, encoded, carried⟩ := reads_field_iff.mp read
  have length := length_of_encodeField encoded
  have ends := carried.stop_eq
  refine ⟨?_, carried.stop_le⟩
  cases width <;> simp [Width.size] at length <;> omega

/-- What one item decides: whether it is the last, or how the items behind it are read. -/
def lastOr (isLast : α → Bool) (rest : Reader (List α)) (next : α) : Reader (List α) := do
  if isLast next then return [next]
  let others ← rest
  return next :: others

theorem upToLastWithin_succ (item : Reader α) (isLast : α → Bool) (budget : Nat) :
    upToLastWithin item isLast (budget + 1) =
      item >>= lastOr isLast (upToLastWithin item isLast budget) := rfl

theorem bind_congr_of_reads {item : Reader α} {first second : α → Reader β}
    (same : ∀ a middle, item.Reads buffer start a middle →
      first a buffer middle = second a buffer middle) :
    (item >>= first) buffer start = (item >>= second) buffer start := by
  cases found : item buffer start with
  | mk result middle notes =>
      cases result with
      | error fault => simp [bind, andThen, found]
      | ok a => simp [bind, andThen, found, same a middle (by simp [Reads, run, found])]

/-- Behind the buffer no item can be read, so the budget does not matter there. -/
theorem upToLastWithin_of_size_le {item : Reader α} (advances : item.Advances)
    (isLast : α → Bool) (inside : buffer.size ≤ start) (budget other : Nat) :
    upToLastWithin item isLast budget buffer start =
      upToLastWithin item isLast other buffer start := by
  have none : ∀ a middle, ¬ item.Reads buffer start a middle := by
    intro a middle read
    have bounds := advances _ _ _ _ read
    omega
  have unread (next : α → Reader (List α)) :
      (item >>= next) buffer start = (item >>= fun a => pure [a]) buffer start :=
    bind_congr_of_reads fun a middle read => absurd read (none a middle)
  have each (budget : Nat) : upToLastWithin item isLast budget buffer start =
      (item >>= fun a => pure [a]) buffer start := by
    cases budget with
    | zero => rfl
    | succ budget => exact unread _
  rw [each budget, each other]

theorem upToLastWithin_eq {item : Reader α} (advances : item.Advances) (isLast : α → Bool)
    {budget other : Nat} (enough : buffer.size ≤ start + budget)
    (plenty : buffer.size ≤ start + other) :
    upToLastWithin item isLast budget buffer start =
      upToLastWithin item isLast other buffer start := by
  induction budget generalizing start other with
  | zero => exact upToLastWithin_of_size_le advances isLast (by omega) 0 other
  | succ budget ih =>
      cases other with
      | zero => exact upToLastWithin_of_size_le advances isLast (by omega) (budget + 1) 0
      | succ other =>
          rw [upToLastWithin_succ, upToLastWithin_succ]
          apply bind_congr_of_reads
          intro a middle read
          have bounds := advances _ _ _ _ read
          unfold lastOr
          split
          · rfl
          · have rest : upToLastWithin item isLast budget buffer middle =
                upToLastWithin item isLast other buffer middle := ih (by omega) (by omega)
            simp only [bind, andThen, rest]

/-- The budget never runs out: reading up to the last item is reading one, and then the rest. -/
theorem upToLast_eq {item : Reader α} (advances : item.Advances) (isLast : α → Bool) :
    upToLast item isLast = item >>= lastOr isLast (upToLast item isLast) := by
  funext buffer start
  have more : upToLast item isLast buffer start =
      upToLastWithin item isLast (buffer.size - start + 1) buffer start :=
    upToLastWithin_eq advances isLast (by omega) (by omega)
  rw [more, upToLastWithin_succ]
  apply bind_congr_of_reads
  intro a middle read
  have bounds := advances _ _ _ _ read
  unfold lastOr
  split
  · rfl
  · have rest : upToLastWithin item isLast (buffer.size - start) buffer middle =
        upToLast item isLast buffer middle :=
      upToLastWithin_eq advances isLast (by omega) (by omega)
    simp only [bind, andThen, rest]

theorem reads_upToLast_iff {item : Reader α} (advances : item.Advances) {isLast : α → Bool}
    {items : List α} :
    (upToLast item isLast).Reads buffer start items stop ↔
      ∃ a middle, item.Reads buffer start a middle ∧
        if isLast a then items = [a] ∧ stop = middle
        else ∃ others, items = a :: others ∧
          (upToLast item isLast).Reads buffer middle others stop := by
  conv => lhs; rw [upToLast_eq advances]
  rw [reads_bind_iff]
  constructor
  · rintro ⟨a, middle, first, behind⟩
    refine ⟨a, middle, first, ?_⟩
    unfold lastOr at behind
    split at behind
    next last => simpa [last] using reads_pure_iff.mp behind
    next more =>
      obtain ⟨others, _, rest, ended⟩ := reads_bind_iff.mp behind
      obtain ⟨rfl, rfl⟩ := reads_pure_iff.mp ended
      simpa [more] using rest
  · rintro ⟨a, middle, first, behind⟩
    refine ⟨a, middle, first, ?_⟩
    unfold lastOr
    split
    next last => exact reads_pure_iff.mpr (by simpa [last] using behind)
    next more =>
      obtain ⟨others, rfl, rest⟩ := (by simpa [more] using behind :
        ∃ others, items = a :: others ∧ (upToLast item isLast).Reads buffer middle others stop)
      exact reads_bind_iff.mpr ⟨others, stop, rest, reads_pure_iff.mpr ⟨rfl, rfl⟩⟩

theorem upToLast_advances {item : Reader α} (advances : item.Advances) (isLast : α → Bool) :
    (upToLast item isLast).Advances := by
  intro buffer start items stop read
  induction items generalizing start with
  | nil =>
      obtain ⟨a, middle, _, behind⟩ := (reads_upToLast_iff advances).mp read
      split at behind <;> simp at behind
  | cons first rest ih =>
      obtain ⟨a, middle, one, behind⟩ := (reads_upToLast_iff advances).mp read
      have bounds := advances _ _ _ _ one
      split at behind
      next last =>
        obtain ⟨_, rfl⟩ := behind
        exact bounds
      next more =>
        obtain ⟨others, same, behind⟩ := behind
        obtain ⟨rfl, rfl⟩ := List.cons.inj same
        have later := ih _ behind
        exact ⟨by omega, later.2⟩

end Reader

end FighterData
