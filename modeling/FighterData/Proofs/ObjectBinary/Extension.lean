import FighterData.Proofs.ObjectBinary.RoundTrip
import FighterData.Proofs.Tiling
import FighterData.Reader.Failure

/-! Files that are longer or shorter than they were. Nothing in a file tells where its last blob
ends, so bytes behind a file are bytes of that blob, and a file can lose bytes of it and of nothing
else. A file without a blob must end where its audio table ends. That a cut file is refused follows
from what its extension back to the whole file is read as. -/
namespace FighterData

theorem Entry.pointersFrom_replace (running : Nat) (front : List Bytes) (last other : Bytes) :
    pointersFrom running (front ++ [last]) = pointersFrom running (front ++ [other]) := by
  rw [pointersFrom_concat, pointersFrom_concat]

namespace Audio

variable {buffer : Buffer} {start stop : Nat}

/-- The offset of the last blob does not tell its size, so any blob fits in its place. -/
theorem Plan.exists_opening {plan : Plan} {front : List Bytes} {last : Bytes}
    (split : plan.blobs = front ++ [last]) :
    ∃ opening, Piece.bytes plan = opening ++ last ∧
      ∀ blob, ∃ other : Plan, Piece.value other = ⟨front ++ [blob]⟩ ∧
        Piece.bytes other = opening ++ blob := by
  have count (blob : Bytes) : (front ++ [blob]).length = plan.blobs.length := by simp [split]
  refine ⟨PointerTable.spell .big plan.offsets plan.padding ++ front.flatten, ?_, ?_⟩
  · show Plan.bytes plan = _
    rw [Plan.bytes, split, List.flatten_concat, List.append_assoc]
  · intro blob
    let other : Plan := ⟨front ++ [blob], plan.padding, plan.room, by simp, by
      rw [count, Entry.pointersFrom_replace _ front blob last, ← split]
      exact plan.bounded⟩
    have offsets : other.offsets = plan.offsets := by
      show Entry.pointersFrom (4 * (front ++ [blob]).length + plan.padding) (front ++ [blob]) = _
      rw [count, Entry.pointersFrom_replace _ front blob last, ← split]
      rfl
    refine ⟨other, rfl, ?_⟩
    show Plan.bytes other = _
    rw [Plan.bytes, offsets]
    show _ ++ (front ++ [blob]).flatten = _
    rw [List.flatten_concat, List.append_assoc]

/-- Behind the table of a section without a blob there must be nothing. -/
theorem refuses_of_empty {plan : Plan} (place : Nat) (none : plan.blobs = [])
    (more : stop < buffer.size) (carried : buffer.Carries start stop (Piece.bytes plan)) :
    ∃ behind, (read start).Refuses buffer place
      (.leftover "Empty audio section" stop buffer.size) behind := by
  have offsets : plan.offsets = [] := by simp [Plan.offsets, none, Entry.pointersFrom]
  have bytes : Piece.bytes plan = PointerTable.spell .big plan.offsets plan.padding := by
    show Plan.bytes plan = _
    rw [Plan.bytes, none, List.flatten_nil, List.append_nil]
  rw [bytes] at carried
  have ends := carried.stop_eq
  rw [PointerTable.length_spell] at ends
  have tabled : (PointerTable.read start .big PointerTable.defaultAlignment).Reads buffer place
      ⟨start, plan.offsets, plan.padding⟩ (start + 4 * plan.offsets.length + 4) :=
    PointerTable.reads_of_carries plan.tableFits carried
  have sized : Reader.size.Reads buffer (start + 4 * plan.offsets.length + 4) buffer.size
      (start + 4 * plan.offsets.length + 4) := Reader.reads_size_iff.mpr ⟨rfl, rfl⟩
  have closed : (start : Int) + PointerTable.size ⟨start, plan.offsets, plan.padding⟩ = stop := by
    show (start : Int) + (4 * plan.offsets.length + plan.padding) = stop
    omega
  refine ⟨start + 4 * plan.offsets.length + 4, ?_⟩
  refine Reader.refuses_bind_iff.mpr (Or.inr ⟨_, _, tabled, ?_⟩)
  refine Reader.refuses_bind_iff.mpr (Or.inr ⟨_, _, sized, ?_⟩)
  simp only [closed]
  rw [if_pos (by rw [offsets]; rfl), if_pos (by omega)]
  exact Reader.refuses_bind_iff.mpr (Or.inl (Reader.refuses_refuse_iff.mpr ⟨rfl, rfl⟩))

end Audio

namespace ObjectBinary

variable {binary : ObjectBinary} {data : Bytes}

/-- The binary with other blobs. -/
def withBlobs (binary : ObjectBinary) (blobs : List Bytes) : ObjectBinary :=
  { binary with audio := ⟨blobs⟩ }

/-- What stands before the last blob of a file can be followed by any other blob. -/
theorem exists_opening_of_decode (read : decode data = .ok binary) {front : List Bytes}
    {last : Bytes} (split : binary.audio.blobs = front ++ [last]) :
    ∃ opening, data = opening ++ last ∧
      ∀ blob, decode (opening ++ blob) = .ok (binary.withBlobs (front ++ [blob])) := by
  obtain ⟨plan, rfl, rfl⟩ := decode_eq_ok_iff.mp read
  have blobs : plan.audio.blobs = front ++ [last] := split
  obtain ⟨opening, bytes, others⟩ := Audio.Plan.exists_opening blobs
  refine ⟨plan.front ++ opening, ?_, ?_⟩
  · rw [plan.bytes_eq_front, bytes, List.append_assoc]
  · intro blob
    obtain ⟨audio, value, spelled⟩ := others blob
    have starts : Entry.pointersFrom plan.tableSize
        (Piece.bytes plan.player :: (plan.objects.map Piece.bytes ++ [Piece.bytes audio])) =
          plan.starts :=
      Entry.pointersFrom_replace _ (Piece.bytes plan.player :: plan.objects.map Piece.bytes) _ _
    let other : Plan := { plan with
      audio := audio
      bounded := by
        rw [← Plan.tableSize, starts]
        exact plan.bounded }
    have fronts : other.front = plan.front := by
      rw [Plan.front, Plan.front]
      congr 2
    refine decode_eq_ok_iff.mpr ⟨other, ?_, ?_⟩
    · rw [other.bytes_eq_front, fronts, List.append_assoc]
      exact congrArg _ spelled
    · show ObjectBinary.mk _ _ (Piece.value audio) = _
      rw [value]
      rfl

/-- Bytes behind a file are bytes of its last blob. -/
theorem decode_append_of_blobs (read : decode data = .ok binary) {front : List Bytes} {last : Bytes}
    (split : binary.audio.blobs = front ++ [last]) (more : Bytes) :
    decode (data ++ more) = .ok (binary.withBlobs (front ++ [last ++ more])) := by
  obtain ⟨opening, rfl, others⟩ := exists_opening_of_decode read split
  rw [List.append_assoc]
  exact others (last ++ more)

/-- A file without a blob is refused with anything behind it. -/
theorem decode_append_of_no_blobs (read : decode data = .ok binary)
    (none : binary.audio.blobs = []) {more : Bytes} (some : more ≠ []) :
    decode (data ++ more) =
      .error (.leftover "Empty audio section" data.length (data.length + more.length)) := by
  obtain ⟨plan, rfl, rfl⟩ := decode_eq_ok_iff.mp read
  have positive := List.length_pos_iff.mpr some
  have size : (plan.bytes ++ more).toArray.size = plan.bytes.length + more.length := by simp
  have carried : Buffer.Carries (plan.bytes ++ more).toArray 0 plan.bytes.length
      (plan.front ++ Piece.bytes plan.audio) := by
    have placed := Buffer.carries_middle [] plan.bytes more
    rw [← plan.bytes_eq_front]
    simpa using placed
  obtain ⟨last, front, audio⟩ := Buffer.carries_append_iff.mp carried
  have given : readFront.Gives (plan.bytes ++ more).toArray 0
      (Piece.value plan.player, Piece.value plan.objects, last) := gives_readFront front
  obtain ⟨behind, opened⟩ := given
  obtain ⟨stop, refused⟩ := Audio.refuses_of_empty behind none (by omega) audio
  have whole : ObjectBinary.read.Refuses (plan.bytes ++ more).toArray 0
      (.leftover "Empty audio section" plan.bytes.length (plan.bytes ++ more).toArray.size)
      stop := by
    rw [read_eq_readFront_bind]
    refine Reader.refuses_bind_iff.mpr (Or.inr ⟨_, behind, opened, ?_⟩)
    exact Reader.refuses_bind_iff.mpr (Or.inl refused)
  rw [size] at whole
  exact whole.1

/-- A cut file is read exactly if only bytes of the last blob are missing. -/
theorem decode_take_eq_ok_iff (read : decode data = .ok binary) {kept : Nat}
    (cut : kept < data.length) {shorter : ObjectBinary} :
    decode (data.take kept) = .ok shorter ↔
      ∃ front last, binary.audio.blobs = front ++ [last] ∧ data.length - kept ≤ last.length ∧
        shorter = binary.withBlobs
          (front ++ [last.take (last.length - (data.length - kept))]) := by
  constructor
  · intro again
    have lost : data.drop kept ≠ [] := by
      intro none
      have length := congrArg List.length none
      rw [List.length_drop, List.length_nil] at length
      omega
    -- the missing bytes bring the whole file back, so its value is the extension of the shorter one
    cases List.eq_nil_or_concat' shorter.audio.blobs with
    | inl none =>
        have refused := decode_append_of_no_blobs again none lost
        rw [List.take_append_drop, read] at refused
        cases refused
    | inr found =>
        obtain ⟨front, last, split⟩ := found
        have longer := decode_append_of_blobs again split (data.drop kept)
        rw [List.take_append_drop, read] at longer
        obtain rfl := Except.ok.inj longer
        have size : (last ++ data.drop kept).length - (data.length - kept) = last.length := by
          rw [List.length_append, List.length_drop]
          omega
        refine ⟨front, last ++ data.drop kept, rfl, ?_, ?_⟩
        · rw [List.length_append, List.length_drop]
          omega
        · rw [size, List.take_left, ← split]
          rfl
  · intro found
    obtain ⟨front, last, split, enough, rfl⟩ := found
    obtain ⟨opening, rfl, others⟩ := exists_opening_of_decode read split
    rw [List.length_append] at cut enough ⊢
    have size : last.length - (opening.length + last.length - kept) = kept - opening.length := by
      omega
    rw [List.take_append, List.take_of_length_le (by omega), size]
    exact others _

/-- What a file is read as when bytes are put behind it, and when bytes are cut off its end. -/
theorem decode_append_and_take (read : decode data = .ok binary) :
    (∀ more, more ≠ [] →
      (∀ front last, binary.audio.blobs = front ++ [last] →
        decode (data ++ more) = .ok (binary.withBlobs (front ++ [last ++ more]))) ∧
      (binary.audio.blobs = [] → decode (data ++ more) =
        .error (.leftover "Empty audio section" data.length (data.length + more.length)))) ∧
    ∀ kept < data.length, ∀ shorter, decode (data.take kept) = .ok shorter ↔
      ∃ front last, binary.audio.blobs = front ++ [last] ∧ data.length - kept ≤ last.length ∧
        shorter = binary.withBlobs
          (front ++ [last.take (last.length - (data.length - kept))]) := by
  refine ⟨fun more some => ⟨?_, ?_⟩, fun kept cut shorter => decode_take_eq_ok_iff read cut⟩
  · intro front last split
    exact decode_append_of_blobs read split more
  · intro none
    exact decode_append_of_no_blobs read none some

theorem decode_append_and_take_small :
    decode (small.bytes ++ [9]) = .ok (small.withBlobs [[1, 2, 3, 9]]) ∧
      decode (small.bytes.take (small.bytes.length - 2)) = .ok (small.withBlobs [[1]]) ∧
      ∀ shorter, decode (small.bytes.take (small.bytes.length - 4)) ≠ .ok shorter := by
  have read := decode_bytes small_wellFormed short_small
  have long : 4 < small.bytes.length := by decide +kernel
  obtain ⟨longer, cut⟩ := decode_append_and_take read
  refine ⟨(longer [9] (by simp)).1 [] [1, 2, 3] rfl, ?_, ?_⟩
  · have two : small.bytes.length - (small.bytes.length - 2) = 2 := by omega
    refine (cut (small.bytes.length - 2) (by omega) _).mpr ⟨[], [1, 2, 3], rfl, ?_, ?_⟩
    · simp [two]
    · rw [two]
      rfl
  · intro shorter found
    obtain ⟨front, last, split, enough, _⟩ := (cut (small.bytes.length - 4) (by omega) _).mp found
    have four : small.bytes.length - (small.bytes.length - 4) = 4 := by omega
    have member : last ∈ small.audio.blobs := by simp [split]
    obtain rfl : last = [1, 2, 3] := List.mem_singleton.mp member
    rw [four] at enough
    simp at enough

end ObjectBinary

end FighterData
