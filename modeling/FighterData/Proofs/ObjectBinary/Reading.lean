import FighterData.Proofs.ObjectBinary.Plan

/-! Reading a file is finding its plan, for every byte string. The start of the audio section is
read twice, and the second read meets the same word as the first. -/
namespace FighterData.ObjectBinary

variable {buffer : Buffer} {place stop : Nat}

/-- The last word of a table at the start of the buffer is its last offset. -/
theorem reads_lastOffset {front : List Int} {last : Int} (bounds : PointerTable.IsOffset last)
    (carried : buffer.Carries 0 stop (PointerTable.wordBytes .little (front ++ [last]))) :
    (Reader.field .u32 .little).Reads buffer (4 * front.length) last (4 * front.length + 4) := by
  rw [PointerTable.wordBytes_append] at carried
  have ends := carried.stop_eq
  simp only [List.length_append, PointerTable.length_wordBytes, List.length_singleton] at ends
  obtain ⟨_, word⟩ := carried.split
  simp only [PointerTable.length_wordBytes] at word
  have first : 0 + 4 * front.length = 4 * front.length := by omega
  have second : stop = 4 * front.length + 4 := by omega
  rw [first, second] at word
  have alone : PointerTable.wordBytes .little [last] =
      ByteOrder.little.arrange (Width.u32.encode last) := List.append_nil _
  rw [alone] at word
  exact Reader.reads_field_iff.mpr ⟨_, encodeField_eq_ok_iff.mpr ⟨bounds.holds, rfl⟩, word⟩

theorem exists_first_last {offsets : List Int} (enough : ¬ offsets.length < 2) :
    ∃ first rest last, offsets = first :: (rest ++ [last]) := by
  cases offsets with
  | nil => simp at enough
  | cons first others =>
      cases List.eq_nil_or_concat others with
      | inl none => simp [none] at enough
      | inr found =>
          obtain ⟨rest, last, same⟩ := found
          exact ⟨first, rest, last, by simp [same]⟩

theorem exists_plan_of_gives {binary : ObjectBinary} (given : read.Gives buffer place binary) :
    ∃ plan : Plan, plan.binary = binary ∧ buffer.Carries 0 buffer.size plan.bytes := by
  simp only [read, Reader.gives_bind_iff] at given
  obtain ⟨table, middle, tabled, given⟩ := given
  obtain ⟨start, padding, begins, _, fits, ends, words, spelled⟩ :=
    PointerTable.exists_of_reads tabled
  obtain rfl : start = 0 := by omega
  split at given
  next =>
    obtain ⟨_, _, refused, _⟩ := Reader.gives_bind_iff.mp given
    exact absurd refused Reader.not_reads_refuse
  next enough =>
    simp only [Reader.gives_bind_iff, Reader.reads_position_iff, Reader.reads_seek_iff,
      Reader.reads_size_iff] at given
    obtain ⟨_, _, ⟨rfl, rfl⟩, _, back, ⟨backed, _⟩, audioStart, _, pointer, player, _, playerRead,
      objects, _, objectsRead, audio, _, audioRead, _, _, _, _, _, _, done⟩ := given
    obtain rfl := Reader.eq_of_gives_pure done
    obtain ⟨first, rest, last, split⟩ := exists_first_last enough
    have bounds := fits.bounded last (by simp [split])
    rw [split] at words spelled playerRead objectsRead
    have lead : first :: (rest ++ [last]) = (first :: rest) ++ [last] := rfl
    rw [lead] at words
    have word := reads_lastOffset bounds words.split.1
    have count : table.offsets.length = (first :: rest).length + 1 := by simp [split]
    have same : back = 4 * (first :: rest).length := by omega
    rw [same] at pointer
    obtain rfl := pointer.gives.unique word.gives
    obtain ⟨arrival, sound, rfl, rfl, section'⟩ := Audio.exists_plan_of_gives audioRead.gives
    have zipped : (rest ++ [(arrival : Int)]).dropLast.zip (rest ++ [(arrival : Int)]).tail =
        boundsOf rest arrival := by
      rw [List.dropLast_concat]
      rfl
    rw [List.tail_cons, zipped] at objectsRead
    obtain ⟨second, pieces, pointers, rfl, regions⟩ := exists_sections ObjectEntry.readsSections
      (Piece.bytes sound) rfl section' objectsRead.gives
    have next : (first :: (rest ++ [(arrival : Int)])).getD 1 0 = second := by
      rw [pointers]
      cases pieces <;> rfl
    rw [next] at playerRead
    obtain ⟨opening, main, begun, rfl, region⟩ :=
      (PlayerEntry.readsSections (Nat.le_trans regions.start_le regions.stop_le)).mp
        playerRead.gives
    have starts : table.offsets = Entry.pointersFrom opening
        (Piece.bytes main :: (pieces.map Piece.bytes ++ [Piece.bytes sound])) := by
      have size := region.stop_eq
      have head : first = opening := begun
      rw [split, pointers, head, size]
      rfl
    have count : table.offsets.length = pieces.length + 2 := by
      rw [starts]
      simp
    have size : opening = 4 * (pieces.length + 2) + padding := by
      have head := fits.first opening (by rw [starts]; rfl)
      omega
    rw [size] at starts
    let plan : Plan := ⟨padding, main, pieces, sound, fits.room, by
      rw [← starts]
      exact fits.bounded⟩
    refine ⟨plan, rfl, ?_⟩
    have joined := region.append regions
    have reached := Nat.le_trans joined.start_le joined.stop_le
    have ending : 0 + 4 * (first :: (rest ++ [(arrival : Int)])).length + padding = opening := by
      rw [← split]
      omega
    rw [ending] at spelled
    have whole := (spelled reached).append joined
    rw [← split, starts] at whole
    simpa [Plan.bytes, Plan.starts, Plan.tableSize, Plan.regions, plan, Piece.bytes, List.flatMap]
      using whole

/-- Where the last start stands in the table, it is read again. -/
theorem reads_audioStart {plan : Plan} {front : List Int} {last : Int}
    (split : plan.starts = front ++ [last])
    (spelled : buffer.Carries 0 stop (PointerTable.spell .little plan.starts plan.padding)) :
    (Reader.field .u32 .little).Reads buffer (4 * front.length) last (4 * front.length + 4) := by
  have member : last ∈ plan.starts := by simp [split]
  have words := spelled.split.1
  rw [split] at words
  exact reads_lastOffset (plan.bounded last member) words

/-- The starts of a plan, from the sizes of its regions. -/
theorem starts_eq {plan : Plan} {opening second last : Nat} (first : opening = plan.tableSize)
    (next : second = opening + (Piece.bytes plan.player).length)
    (final : last = second + (Piece.bytes plan.objects).length) :
    plan.starts = (opening : Int) ::
      (Entry.pointersFrom second (plan.objects.map Piece.bytes) ++ [(last : Int)]) := by
  have ending : last = second + (plan.objects.map Piece.bytes).flatten.length := final
  rw [Plan.starts, Plan.regions, Entry.pointersFrom, Entry.pointersFrom_append, ← first, ← next,
    ← ending]
  rfl

/-- The reads before the audio section, and where that section starts. -/
def readFront : Reader (PlayerEntry × List ObjectEntry × Int) := do
  let table ← PointerTable.read 0 .little PointerTable.defaultAlignment
  let starts := table.offsets
  if starts.length < 2 then
    Reader.refuse (.mismatch (.topLevelSlots starts.length) (some 0))
  let behind ← Reader.position
  Reader.seek (behind - 8)
  let audioStart ← Reader.field .u32 .little
  let player ← PlayerEntry.read (starts.getD 0 0) (starts.getD 1 0)
  let bounds := starts.tail.dropLast.zip starts.tail.tail
  let objects ← Reader.forEach (fun bound : Int × Int => ObjectEntry.read bound.1 bound.2) bounds
  return (player, objects, audioStart)

def readBack (front : PlayerEntry × List ObjectEntry × Int) : Reader ObjectBinary := do
  let audio ← Audio.read front.2.2
  let size ← Reader.size
  Reader.note (.binary size front.2.1.length audio.blobs.length)
  return ⟨front.1, front.2.1, audio⟩

theorem read_eq_readFront_bind : read = readFront >>= readBack := by
  unfold read readFront readBack
  rw [bind_assoc]
  congr 1
  funext table
  dsimp only
  split <;> simp only [bind_assoc, pure_bind]

/-- What stands before the audio section. -/
def Plan.front (plan : Plan) : Bytes :=
  PointerTable.spell .little plan.starts plan.padding ++
    (Piece.bytes plan.player ++ Piece.bytes plan.objects)

theorem Plan.bytes_eq_front (plan : Plan) : plan.bytes = plan.front ++ Piece.bytes plan.audio := by
  simp [Plan.bytes, Plan.front, Plan.regions, Piece.bytes, List.flatMap]

/-- What stands before the audio section is read wherever a buffer starts with it. -/
theorem gives_readFront {plan : Plan} (carried : buffer.Carries 0 stop plan.front) :
    readFront.Gives buffer place (Piece.value plan.player, Piece.value plan.objects, stop) := by
  obtain ⟨opening, spelled, regions⟩ := Buffer.carries_append_iff.mp carried
  have opened := spelled.stop_eq
  rw [PointerTable.length_spell, plan.length_starts] at opened
  obtain ⟨second, player, objects⟩ := Buffer.carries_append_iff.mp regions
  have playerEnd := player.stop_eq
  have objectsEnd := objects.stop_eq
  have size : opening = plan.tableSize := by
    rw [opened, Plan.tableSize]
    omega
  have starts := starts_eq size playerEnd objectsEnd
  have next : plan.starts.getD 1 0 = second := by
    rw [starts]
    cases shape : plan.objects with
    | nil =>
        rw [shape] at objects
        simp [Entry.pointersFrom, objects.eq_start_of_nil]
    | cons piece rest => rfl
  have bounds : boundsOf (Entry.pointersFrom second (plan.objects.map Piece.bytes)) stop =
      plan.starts.tail.dropLast.zip plan.starts.tail.tail := by
    rw [starts, List.tail_cons, List.dropLast_concat]
    rfl
  have enough : ¬ plan.starts.length < 2 := by
    rw [plan.length_starts]
    omega
  have whole : plan.starts = ((opening : Int) ::
      Entry.pointersFrom second (plan.objects.map Piece.bytes)) ++ [(stop : Int)] := starts
  have word := reads_audioStart whole spelled
  have placed := spelled.stop_le
  have back : ((0 + 4 * plan.starts.length + 4 : Nat) : Int) - 8 = (4 * ((opening : Int) ::
      Entry.pointersFrom second (plan.objects.map Piece.bytes)).length : Nat) := by
    rw [plan.length_starts]
    simp
    omega
  have seeked : 4 * ((opening : Int) ::
      Entry.pointersFrom second (plan.objects.map Piece.bytes)).length ≤ buffer.size := by
    simp only [List.length_cons, Entry.length_pointersFrom, List.length_map]
    omega
  unfold readFront
  refine (PointerTable.reads_of_carries plan.tableFits spelled).bind_gives ?_
  rw [if_neg enough]
  refine Reader.reads_position.bind_gives ?_
  refine (Reader.reads_seek back seeked).bind_gives ?_
  refine word.bind_gives ?_
  refine (PlayerEntry.readsSections.gives ?_ next player).bind fun middle => ?_
  · rw [starts]
    rfl
  rw [← bounds]
  refine (gives_sections ObjectEntry.readsSections objects _).bind fun middle => ?_
  exact Reader.gives_pure _

theorem gives_of_plan {plan : Plan} (carried : buffer.Carries 0 buffer.size plan.bytes) :
    read.Gives buffer place plan.binary := by
  rw [plan.bytes_eq_front] at carried
  obtain ⟨last, front, audio⟩ := Buffer.carries_append_iff.mp carried
  rw [read_eq_readFront_bind]
  refine (gives_readFront front).bind fun middle => ?_
  refine (Audio.gives_of_plan audio).bind fun middle => ?_
  refine (Reader.reads_size_iff.mpr ⟨rfl, rfl⟩).bind_gives ?_
  exact (Reader.reads_note _).bind_gives (Reader.gives_pure _)

/-- A byte string is read exactly if it is the bytes of a plan. -/
theorem decode_eq_ok_iff {data : Bytes} {binary : ObjectBinary} :
    decode data = .ok binary ↔ ∃ plan : Plan, plan.bytes = data ∧ plan.binary = binary := by
  have run : decode data = .ok binary ↔ read.Gives data.toArray 0 binary :=
    Reader.gives_iff.symm
  rw [run]
  constructor
  · intro given
    obtain ⟨plan, shown, carried⟩ := exists_plan_of_gives given
    exact ⟨plan, carried.eq_of_whole, shown⟩
  · intro found
    obtain ⟨plan, rfl, rfl⟩ := found
    exact gives_of_plan (Buffer.Carries.whole plan.bytes)

end FighterData.ObjectBinary
