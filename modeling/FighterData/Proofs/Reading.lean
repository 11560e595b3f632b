import FighterData.Reader.Success

/-! Reads inside known bounds. A check of a gap looks at bytes that are cut at the end of the
buffer; where the gap is known to end inside the buffer, the check is passed exactly by the bytes
that the gap must hold. `Reader.Gives` forgets where a read stops, for readers that choose their
own place to start. -/
namespace FighterData

namespace Bytes

theorem filled_append (fill : UInt8) (first second : Nat) :
    filled fill first ++ filled fill second = filled fill (first + second) :=
  List.replicate_append_replicate

/-- The bytes between two places, when what stands before them has a known length. -/
theorem slice_append {front middle back : Bytes} {start stop : Nat} (before : front.length = start)
    (ends : start + middle.length = stop) :
    slice (front ++ (middle ++ back)) start stop = middle := by
  rw [slice, ← before, List.drop_left, before, ← ends, Nat.add_sub_cancel_left,
    List.take_left]

/-- The bytes between two places, as far as the buffer reaches, are all the fill byte. -/
theorem isFilled_extract_iff {buffer : Buffer} {first last : Nat} {fill : UInt8} :
    isFilled fill (buffer.extract first last).toList = true ↔
      ∀ (place : Nat) (byte : UInt8), first ≤ place → place < last → buffer[place]? = some byte →
        byte = fill := by
  simp only [isFilled, List.all_eq_true, beq_iff_eq]
  constructor
  · intro every place byte lower upper held
    refine every byte (List.mem_iff_getElem?.mpr ⟨place - first, ?_⟩)
    have inside := (Array.getElem?_eq_some_iff.mp held).1
    rw [Array.getElem?_toList, Array.getElem?_extract, if_pos (by omega),
      Nat.add_sub_cancel' lower, held]
  · intro every byte member
    obtain ⟨index, held⟩ := List.mem_iff_getElem?.mp member
    rw [Array.getElem?_toList, Array.getElem?_extract] at held
    split at held
    next inside => exact every (first + index) byte (by omega) (by omega) held
    next => cases held

/-- What closes an array: zeros, a run of FF, and zeros again. -/
def trailer (padding before after : Nat) : Bytes :=
  filled 0 before ++ filled 0xFF padding ++ filled 0 after

@[simp] theorem length_trailer (padding before after : Nat) :
    (trailer padding before after).length = before + padding + after := by
  simp [trailer, Nat.add_assoc]

/-- The first run of a trailer is the run of the trailer. -/
theorem firstRun?_trailer {padding : Nat} (positive : 0 < padding) (before after : Nat) :
    firstRun? 0xFF padding (trailer padding before after) = some before := by
  refine firstRun?_eq_some_iff.mpr ⟨?_, fun earlier bound stands => ?_⟩
  · rw [trailer, List.append_assoc, List.drop_left' (length_filled _ _)]
    exact List.prefix_append _ _
  · -- What stands before the run starts with a zero, which no run does.
    obtain ⟨more, rfl⟩ : ∃ more, before = earlier + (more + 1) := ⟨before - earlier - 1, by omega⟩
    obtain ⟨run, rfl⟩ : ∃ run, padding = run + 1 := ⟨padding - 1, by omega⟩
    have zeros : filled 0 (earlier + (more + 1)) = filled 0 earlier ++ 0 :: filled 0 more :=
      (filled_append 0 earlier (more + 1)).symm
    have marks : filled 0xFF (run + 1) = 0xFF :: filled 0xFF run := List.replicate_succ
    rw [trailer, zeros, List.append_assoc, List.append_assoc,
      List.drop_left' (length_filled _ _), List.cons_append, marks] at stands
    exact absurd (List.cons_prefix_cons.mp stands).1 (by decide)

end Bytes

open Bytes in
theorem Reader.isTrailer_iff {padding : Nat} {gap : Bytes} (positive : 0 < padding) :
    isTrailer padding gap = true ↔ ∃ before after, gap = trailer padding before after := by
  constructor
  · intro accepted
    unfold isTrailer at accepted
    split at accepted
    next => cases accepted
    next place found =>
      obtain ⟨⟨behind, run⟩, _⟩ := firstRun?_eq_some_iff.mp found
      simp only [Bool.and_eq_true, isFilled_iff] at accepted
      obtain ⟨front, back⟩ := accepted
      have rest : gap.drop (place + padding) = behind := by
        rw [← List.drop_drop, ← run, List.drop_left' (length_filled _ _)]
      rw [rest] at back
      refine ⟨(gap.take place).length, behind.length, ?_⟩
      rw [trailer, ← front, ← back, List.append_assoc, run, List.take_append_drop]
  · intro found
    obtain ⟨before, after, rfl⟩ := found
    have front : (trailer padding before after).take before = filled 0 before := by
      rw [trailer, List.append_assoc, List.take_left' (length_filled _ _)]
    have back : (trailer padding before after).drop (before + padding) = filled 0 after := by
      rw [trailer, List.drop_left' (by simp)]
    simp only [isTrailer, firstRun?_trailer positive, front, back, Bool.and_eq_true, isFilled_iff,
      length_filled, and_self]

open Bytes in
theorem Reader.closesGap_iff {padding : Nat} {gap : Bytes} (positive : 0 < padding) :
    closesGap padding gap = true ↔ ∃ before after, gap = trailer padding before after := by
  have closes : closesGap padding gap = isTrailer padding gap := by simp [closesGap]
  rw [closes, isTrailer_iff positive]

namespace Buffer

variable {buffer : Buffer} {start middle stop : Nat} {data : Bytes}

theorem Carries.start_le (carried : Carries buffer start stop data) : start ≤ stop := by
  have ends := carried.stop_eq
  omega

theorem carries_nil (inside : start ≤ buffer.size) : Carries buffer start start [] := by
  refine carries_iff.mpr ⟨Nat.le_refl _, inside, ?_⟩
  simp

theorem Carries.eq_start_of_nil (carried : Carries buffer start stop []) : stop = start := by
  have ends := carried.stop_eq
  simpa using ends

theorem Carries.append {more : Bytes} (first : Carries buffer start middle data)
    (second : Carries buffer middle stop more) : Carries buffer start stop (data ++ more) :=
  carries_append_iff.mpr ⟨middle, first, second⟩

theorem Carries.unique {other : Bytes} (first : Carries buffer start stop data)
    (second : Carries buffer start stop other) : data = other := by
  rw [first.eq_extract, second.eq_extract]

/-- A carried byte string whose parts are known carries each part at its place. -/
theorem Carries.split {first second : Bytes} (carried : Carries buffer start stop (first ++ second)) :
    Carries buffer start (start + first.length) first ∧
      Carries buffer (start + first.length) stop second := by
  obtain ⟨place, front, back⟩ := carries_append_iff.mp carried
  have same := front.stop_eq
  rw [same] at front back
  exact ⟨front, back⟩

/-- What stands behind the buffer does not change what it carries. -/
theorem Carries.extend (carried : Carries buffer start stop data) (more : Buffer) :
    Carries (buffer ++ more) start stop data := by
  obtain ⟨before, behind, whole, place, ends⟩ := carried
  refine ⟨before, behind ++ more.toList, ?_, place, ends⟩
  rw [Array.toList_append, whole, List.append_assoc]

theorem carries_singleton_iff {byte : UInt8} :
    Carries buffer start stop [byte] ↔ buffer[start]? = some byte ∧ stop = start + 1 := by
  rw [← Array.getElem?_toList]
  constructor
  · intro carried
    obtain ⟨before, behind, whole, rfl, rfl⟩ := carried
    rw [whole]
    simp
  · intro found
    obtain ⟨here, rfl⟩ := found
    obtain ⟨inside, rfl⟩ := List.getElem?_eq_some_iff.mp here
    refine ⟨buffer.toList.take start, buffer.toList.drop (start + 1), ?_, ?_, rfl⟩
    · rw [List.append_assoc, List.singleton_append, List.getElem_cons_drop, List.take_append_drop]
    · rw [List.length_take]
      omega

theorem Carries.whole (data : Bytes) : Carries data.toArray 0 data.length data := by
  have carried := carries_middle [] data []
  simpa using carried

theorem Carries.eq_of_whole {all data : Bytes} (carried : Carries all.toArray 0 all.length data) :
    data = all :=
  carried.unique (Carries.whole all)

end Buffer

namespace Reader

variable {α β : Type} {buffer : Buffer} {start stop place after : Nat}

theorem reads_expectGap_inside_iff {accepts : Bytes → Bool} {what : String} {done : Unit}
    {first last : Int} (begins : first = start) (ends : last = stop)
    (inside : stop ≤ buffer.size) :
    (expectGap first last accepts what).Reads buffer place done after ↔
      after = place ∧ ∃ gap, accepts gap = true ∧ buffer.Carries start stop gap := by
  rw [reads_expectGap_iff, begins, ends]
  simp only [Int.ofNat_le, Int.toNat_natCast]
  constructor
  · intro passed
    obtain ⟨order, accepted, rfl⟩ := passed
    exact ⟨rfl, _, accepted, Buffer.carries_extract order inside⟩
  · intro found
    obtain ⟨rfl, gap, accepted, carried⟩ := found
    rw [carried.eq_extract] at accepted
    exact ⟨carried.start_le, accepted, rfl⟩

theorem reads_expectFill_inside_iff {fill : UInt8} {what : String} {done : Unit}
    {first last : Int} (begins : first = start) (ends : last = stop)
    (inside : stop ≤ buffer.size) :
    (expectFill first last fill what).Reads buffer place done after ↔
      after = place ∧ ∃ count, buffer.Carries start stop (Bytes.filled fill count) := by
  rw [expectFill, reads_expectGap_inside_iff begins ends inside]
  constructor
  · intro passed
    obtain ⟨same, gap, accepted, carried⟩ := passed
    rw [Bytes.isFilled_iff.mp accepted] at carried
    exact ⟨same, _, carried⟩
  · intro found
    obtain ⟨same, count, carried⟩ := found
    exact ⟨same, _, Bytes.isFilled_iff.mpr (by rw [Bytes.length_filled]), carried⟩

theorem reads_expectTrailer_inside_iff {padding : Nat} {what : String} {done : Unit}
    {first last : Int} (positive : 0 < padding) (begins : first = start) (ends : last = stop)
    (inside : stop ≤ buffer.size) :
    (expectTrailer first last padding what).Reads buffer place done after ↔
      after = place ∧
        ∃ zeros more, buffer.Carries start stop (Bytes.trailer padding zeros more) := by
  rw [expectTrailer, reads_expectGap_inside_iff begins ends inside]
  constructor
  · intro passed
    obtain ⟨same, gap, accepted, carried⟩ := passed
    obtain ⟨zeros, more, rfl⟩ := (closesGap_iff positive).mp accepted
    exact ⟨same, zeros, more, carried⟩
  · intro found
    obtain ⟨same, zeros, more, carried⟩ := found
    exact ⟨same, _, (closesGap_iff positive).mpr ⟨zeros, more, rfl⟩, carried⟩

theorem reads_seek {target : Int} (same : target = stop) (inside : stop ≤ buffer.size) :
    (seek target).Reads buffer start () stop :=
  reads_seek_iff.mpr ⟨same, inside⟩

theorem reads_position : position.Reads buffer start start start :=
  reads_position_iff.mpr ⟨rfl, rfl⟩

theorem reads_note (entry : Note) : (note entry).Reads buffer start () start :=
  reads_note_iff.mpr rfl

theorem reads_lift {result : Except Fault α} {a : α} (success : result = .ok a) :
    (lift result).Reads buffer start a start :=
  reads_lift_iff.mpr ⟨success, rfl⟩

theorem reads_expectFill {fill : UInt8} {count : Nat} {what : String} {first last : Int}
    (begins : first = start) (ends : last = stop)
    (carried : buffer.Carries start stop (Bytes.filled fill count)) :
    (expectFill first last fill what).Reads buffer place () place :=
  (reads_expectFill_inside_iff begins ends carried.stop_le).mpr ⟨rfl, count, carried⟩

theorem reads_expectTrailer {padding before more : Nat} {what : String} {first last : Int}
    (positive : 0 < padding) (begins : first = start) (ends : last = stop)
    (carried : buffer.Carries start stop (Bytes.trailer padding before more)) :
    (expectTrailer first last padding what).Reads buffer place () place :=
  (reads_expectTrailer_inside_iff positive begins ends carried.stop_le).mpr
    ⟨rfl, before, more, carried⟩

theorem Reads.bind {first : Reader α} {next : α → Reader β} {a : α} {b : β} {middle : Nat}
    (read : first.Reads buffer start a middle) (behind : (next a).Reads buffer middle b stop) :
    (first >>= next).Reads buffer start b stop :=
  reads_bind_iff.mpr ⟨a, middle, read, behind⟩

/-- The reader succeeds at `start` with this value, wherever it stops. -/
def Gives (reader : Reader α) (buffer : Buffer) (start : Nat) (a : α) : Prop :=
  ∃ stop, reader.Reads buffer start a stop

theorem gives_iff {reader : Reader α} {a : α} :
    reader.Gives buffer start a ↔ (reader.run buffer start).result = .ok a := by
  simp [Gives, Reads]

theorem Gives.unique {reader : Reader α} {a b : α} (first : reader.Gives buffer start a)
    (second : reader.Gives buffer start b) : a = b := by
  have same := (gives_iff.mp first).symm.trans (gives_iff.mp second)
  exact Except.ok.inj same

theorem Reads.gives {reader : Reader α} {a : α} (read : reader.Reads buffer start a stop) :
    reader.Gives buffer start a :=
  ⟨stop, read⟩

theorem gives_pure (a : α) : (pure a : Reader α).Gives buffer start a :=
  ⟨start, reads_pure_iff.mpr ⟨rfl, rfl⟩⟩

theorem eq_of_gives_pure {a b : α} (given : (pure a : Reader α).Gives buffer start b) : b = a := by
  obtain ⟨_, done⟩ := given
  exact (reads_pure_iff.mp done).1

theorem gives_bind_iff {first : Reader α} {next : α → Reader β} {b : β} :
    (first >>= next).Gives buffer start b ↔
      ∃ a middle, first.Reads buffer start a middle ∧ (next a).Gives buffer middle b := by
  simp only [Gives, reads_bind_iff]
  constructor
  · intro found
    obtain ⟨stop, a, middle, read, behind⟩ := found
    exact ⟨a, middle, read, stop, behind⟩
  · intro found
    obtain ⟨a, middle, read, stop, behind⟩ := found
    exact ⟨stop, a, middle, read, behind⟩

theorem Reads.bind_gives {first : Reader α} {next : α → Reader β} {a : α} {b : β}
    (read : first.Reads buffer start a stop) (behind : (next a).Gives buffer stop b) :
    (first >>= next).Gives buffer start b :=
  gives_bind_iff.mpr ⟨a, stop, read, behind⟩

/-- Behind a read that may stop anywhere, the next one must not depend on its place. -/
theorem Gives.bind {first : Reader α} {next : α → Reader β} {a : α} {b : β}
    (read : first.Gives buffer start a) (behind : ∀ middle, (next a).Gives buffer middle b) :
    (first >>= next).Gives buffer start b := by
  obtain ⟨stop, read⟩ := read
  exact read.bind_gives (behind stop)

theorem gives_forEach_cons {item : α → Reader β} {a : α} {rest : List α} {b : β} {others : List β}
    (first : (item a).Gives buffer start b)
    (behind : ∀ middle, (forEach item rest).Gives buffer middle others) :
    (forEach item (a :: rest)).Gives buffer start (b :: others) := by
  obtain ⟨middle, read⟩ := first
  obtain ⟨stop, more⟩ := behind middle
  exact ⟨stop, reads_forEach_cons_iff.mpr ⟨b, others, middle, rfl, read, more⟩⟩

end Reader

end FighterData
