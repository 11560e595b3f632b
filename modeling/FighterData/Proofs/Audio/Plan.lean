import FighterData.Audio
import FighterData.Proofs.PointerTable.Blocks

/-! How the audio section is laid out. Its blobs follow each other without a gap, and the last one
reaches to the end of the buffer, so nothing but the filling of the table can vary. -/
namespace FighterData.Audio

structure Blob where
  data : Bytes

instance : Piece Blob Bytes where
  value := Blob.data
  bytes := Blob.data

structure Plan where
  blobs : List Bytes
  padding : Nat
  room : 4 ≤ padding
  empty : blobs = [] → padding = 16
  bounded : ∀ offset ∈ Entry.pointersFrom (4 * blobs.length + padding) blobs,
    PointerTable.IsOffset offset

namespace Plan

/-- Where the first blob starts. -/
def tableSize (plan : Plan) : Nat :=
  4 * plan.blobs.length + plan.padding

def offsets (plan : Plan) : List Int :=
  Entry.pointersFrom plan.tableSize plan.blobs

def bytes (plan : Plan) : Bytes :=
  PointerTable.spell .big plan.offsets plan.padding ++ plan.blobs.flatten

instance : Piece Plan Audio where
  value plan := ⟨plan.blobs⟩
  bytes := bytes

theorem tableFits (plan : Plan) : PointerTable.Fits plan.offsets plan.padding :=
  PointerTable.fits_pointersFrom plan.room plan.empty plan.bounded

end Plan

variable {buffer : Buffer} {base padding place : Nat} {offsets : List Int} {length : Int}

theorem readBlob_readsBlocks :
    Reader.ReadsBlocks (readBlob ⟨base, offsets, padding⟩ length) Blob buffer offsets base := by
  intro front rest offset next place data split
  have resolved : PointerTable.resolve ⟨base, offsets, padding⟩ front.length length =
      if next < offset then .error (.mismatch (.slotOrder front.length offset next) none)
      else .ok (base + offset, next - offset) := PointerTable.resolve_eq split _
  constructor
  · intro given
    simp only [readBlob, Reader.gives_bind_iff, Reader.reads_lift_iff, resolved] at given
    obtain ⟨_, _, ⟨success, rfl⟩, given⟩ := given
    split at success
    next => cases success
    next ordered =>
      obtain rfl := Except.ok.inj success
      simp only [Reader.reads_seek_iff] at given
      obtain ⟨_, start, ⟨begins, _⟩, finish, read⟩ := given
      obtain ⟨size, carried⟩ := Reader.reads_bytes_iff.mp read
      have ends := carried.stop_eq
      exact ⟨start, finish, ⟨data⟩, begins, by omega, rfl, carried⟩
  · intro found
    obtain ⟨start, finish, piece, begins, ends, rfl, carried⟩ := found
    have size : finish = start + piece.data.length := carried.stop_eq
    have inside := carried.stop_le
    have ordered : ¬ next < offset := by omega
    rw [if_neg ordered] at resolved
    unfold readBlob
    refine (Reader.reads_lift resolved).bind_gives ?_
    refine (Reader.reads_seek begins (by omega)).bind_gives ?_
    refine (Reader.reads_bytes_iff.mpr ⟨?_, carried⟩).gives
    show next - offset = piece.data.length
    omega

/-- The last blob takes what is left of the buffer. -/
theorem gives_readBlob_last_iff {front : List Int} {offset : Int} {data : Bytes}
    (split : offsets = front ++ [offset]) :
    (readBlob ⟨base, offsets, padding⟩ (buffer.size - base) front.length).Gives buffer place data ↔
      ∃ start : Nat, base + offset = start ∧ buffer.Carries start buffer.size data := by
  have resolved : PointerTable.resolve ⟨base, offsets, padding⟩ front.length (buffer.size - base) =
      if (buffer.size : Int) - base < offset then
        .error (.mismatch (.slotOrder front.length offset (buffer.size - base)) none)
      else .ok (base + offset, buffer.size - base - offset) := PointerTable.resolve_eq split _
  constructor
  · intro given
    simp only [readBlob, Reader.gives_bind_iff, Reader.reads_lift_iff, resolved] at given
    obtain ⟨_, _, ⟨success, rfl⟩, given⟩ := given
    split at success
    next => cases success
    next ordered =>
      obtain rfl := Except.ok.inj success
      simp only [Reader.reads_seek_iff] at given
      obtain ⟨_, start, ⟨begins, _⟩, finish, read⟩ := given
      obtain ⟨size, carried⟩ := Reader.reads_bytes_iff.mp read
      have ends := carried.stop_eq
      have whole : finish = buffer.size := by omega
      rw [whole] at carried
      exact ⟨start, begins, carried⟩
  · intro found
    obtain ⟨start, begins, carried⟩ := found
    have size := carried.stop_eq
    rw [if_neg (by omega)] at resolved
    unfold readBlob
    refine (Reader.reads_lift resolved).bind_gives ?_
    refine (Reader.reads_seek begins (by omega)).bind_gives ?_
    exact (Reader.reads_bytes_iff.mpr ⟨by omega, carried⟩).gives

/-- An audio section that is read is carried, from its start to the end of the buffer, as a plan. -/
theorem exists_plan_of_gives {first : Int} {audio : Audio}
    (given : (read first).Gives buffer place audio) :
    ∃ (start : Nat) (plan : Plan), first = start ∧ Piece.value plan = audio ∧
      buffer.Carries start buffer.size (Piece.bytes plan) := by
  simp only [read, Reader.gives_bind_iff, Reader.reads_size_iff] at given
  obtain ⟨table, middle, tabled, _, _, ⟨rfl, rfl⟩, given⟩ := given
  obtain ⟨start, padding, rfl, shape, fits, _, _, spelled⟩ := PointerTable.exists_of_reads tabled
  rw [shape] at given
  cases List.eq_nil_or_concat table.offsets with
  | inl none =>
      simp only [none, List.isEmpty_nil, if_true, PointerTable.size, List.length_nil] at given
      rw [none] at spelled fits
      split at given
      next =>
        obtain ⟨_, _, refused, _⟩ := Reader.gives_bind_iff.mp given
        exact absurd refused Reader.not_reads_refuse
      next exact =>
        have reached : start + padding = buffer.size := by omega
        have carried := spelled (by simp [reached])
        simp only [List.length_nil, Nat.mul_zero, Nat.add_zero, reached] at carried
        obtain rfl := Reader.eq_of_gives_pure given
        refine ⟨start, ⟨[], padding, fits.room, fun _ => fits.empty rfl, ?_⟩, rfl, rfl, ?_⟩
        · simp [Entry.pointersFrom]
        · simpa [Piece.bytes, Plan.bytes, Plan.offsets, Entry.pointersFrom] using carried
  | inr found =>
      obtain ⟨front, offset, split⟩ : ∃ front offset, table.offsets = front ++ [offset] := by
        simpa using found
      have some : table.offsets.isEmpty = false := by simp [split]
      have count : table.offsets.length = front.length + 1 := by simp [split]
      simp only [some, Bool.false_eq_true, if_false, Reader.gives_bind_iff, count] at given
      obtain ⟨blobs, last, slots, _, _, _, done⟩ := given
      obtain rfl := Reader.eq_of_gives_pure done
      rw [List.range_succ] at slots
      obtain ⟨values, final, behind, rfl, bounded, ending⟩ :=
        Reader.reads_forEach_append_iff.mp slots
      obtain ⟨data, none, stop, rfl, finished, nothing⟩ := Reader.reads_forEach_cons_iff.mp ending
      obtain ⟨rfl, _⟩ := Reader.reads_forEach_nil_iff.mp nothing
      obtain ⟨arrival, arrives, body⟩ := (gives_readBlob_last_iff split).mp finished.gives
      obtain ⟨pieces, rfl, pointers, entries⟩ := Reader.exists_table data
        readBlob_readsBlocks fits spelled split arrives body bounded.gives
      let blobs : List Bytes := pieces.map Piece.bytes ++ [data]
      have counted : blobs.length = pieces.length + 1 := by simp [blobs]
      have bounds : ∀ offset ∈ Entry.pointersFrom (4 * blobs.length + padding) blobs,
          PointerTable.IsOffset offset := by
        rw [counted]
        rw [pointers] at fits
        exact fits.bounded
      have nonempty : blobs ≠ [] := by simp [blobs]
      let plan : Plan := ⟨blobs, padding, fits.room, fun none => absurd none nonempty, bounds⟩
      have planned : plan.offsets = table.offsets := by
        rw [pointers, ← counted]
        rfl
      refine ⟨start, plan, rfl, rfl, ?_⟩
      rw [← planned] at entries
      simpa [Piece.bytes, Plan.bytes, plan, blobs, List.flatMap] using entries

/-- A plan of the audio section that reaches to the end of the buffer is read as its blobs. -/
theorem gives_of_plan {start : Nat} {plan : Plan}
    (carried : buffer.Carries start buffer.size (Piece.bytes plan)) :
    (read start).Gives buffer place (Piece.value plan) := by
  obtain ⟨first, spelled, entries⟩ := Buffer.carries_append_iff.mp carried
  have opened := spelled.stop_eq
  simp only [PointerTable.length_spell] at opened
  unfold read
  refine (PointerTable.reads_of_carries plan.tableFits spelled).bind_gives ?_
  refine (Reader.reads_size_iff.mpr ⟨rfl, rfl⟩).bind_gives ?_
  cases List.eq_nil_or_concat plan.blobs with
  | inl none =>
      have offsets : plan.offsets = [] := by simp [Plan.offsets, none, Entry.pointersFrom]
      rw [none] at entries
      have arrived : buffer.size = first := entries.eq_start_of_nil
      have value : Piece.value plan = ({} : Audio) := by
        show Audio.mk plan.blobs = {}
        rw [none]
      rw [value]
      simp only [offsets, List.isEmpty_nil, if_true, PointerTable.size, List.length_nil] at opened ⊢
      rw [if_neg (by omega)]
      exact Reader.gives_pure _
  | inr found =>
      obtain ⟨blobs, data, split⟩ : ∃ blobs data, plan.blobs = blobs ++ [data] := by
        simpa using found
      obtain ⟨pieces, rfl⟩ : ∃ pieces : List Blob, pieces.map Piece.bytes = blobs :=
        ⟨blobs.map Blob.mk, by simp [Piece.bytes, Function.comp_def]⟩
      have count : plan.offsets.length = pieces.length + 1 := by simp [Plan.offsets, split]
      have pointers : plan.offsets = Entry.pointersFrom (4 * (pieces.length + 1) + plan.padding)
          (pieces.map Piece.bytes ++ [data]) := by
        simp [Plan.offsets, Plan.tableSize, split]
      have parts : Piece.bytes plan = PointerTable.spell .big plan.offsets plan.padding ++
          (Piece.bytes pieces ++ data) := by
        simp [Piece.bytes, Plan.bytes, split, List.flatMap]
      have value : Piece.value plan = ⟨Piece.value pieces ++ [data]⟩ :=
        congrArg Audio.mk split
      rw [parts] at carried
      obtain ⟨front, offset, finish, last, length, arrives, ending, slots⟩ :=
        Reader.gives_table readBlob_readsBlocks pointers carried
      have some : plan.offsets.isEmpty = false := by simp [last]
      have final (place : Nat) :
          (readBlob ⟨start, plan.offsets, plan.padding⟩ (buffer.size - start)
            pieces.length).Gives buffer place data := by
        rw [← length]
        exact (gives_readBlob_last_iff last).mpr ⟨finish, arrives, ending⟩
      simp only [some, Bool.false_eq_true, if_false, count]
      rw [value, List.range_succ]
      have ended (place : Nat) : (Reader.forEach
          (readBlob ⟨start, plan.offsets, plan.padding⟩ (buffer.size - start))
            [pieces.length]).Gives buffer place [data] :=
        Reader.gives_forEach_cons (final place) fun middle => Reader.gives_pure []
      have each := Reader.gives_forEach_append (slots (start + 4 * (pieces.length + 1) + 4)) ended
      exact each.bind fun middle => (Reader.reads_note _).bind_gives (Reader.gives_pure _)

end FighterData.Audio
