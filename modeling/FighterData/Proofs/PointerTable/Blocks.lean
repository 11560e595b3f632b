import FighterData.Entry
import FighterData.Proofs.PointerTable.Spelling

/-! Tables whose slots point at consecutive blocks. The offsets are running sums of the lengths of
the blocks, so a slot ends where the next one starts. The last slot is left to its own rule. -/
namespace FighterData

namespace Entry

variable {blocks : List Bytes} {running : Nat}

@[simp] theorem length_pointersFrom (running : Nat) (blocks : List Bytes) :
    (pointersFrom running blocks).length = blocks.length := by
  induction blocks generalizing running with
  | nil => rfl
  | cons block rest ih => simp [pointersFrom, ih]

theorem pointersFrom_append (running : Nat) (front back : List Bytes) :
    pointersFrom running (front ++ back) =
      pointersFrom running front ++ pointersFrom (running + front.flatten.length) back := by
  induction front generalizing running with
  | nil => rfl
  | cons block rest ih =>
      simp only [List.cons_append, pointersFrom, ih, List.flatten_cons, List.length_append,
        Nat.add_assoc]

theorem head?_pointersFrom {pointer : Int} (head : pointer ∈ (pointersFrom running blocks).head?) :
    pointer = running := by
  cases blocks with
  | nil => simp [pointersFrom] at head
  | cons block rest =>
      have same : (running : Int) = pointer := by simpa [pointersFrom] using head
      exact same.symm

/-- The pointers lie between the first block and the end of the last one. -/
theorem pointer_le_of_mem {pointer : Int} (member : pointer ∈ pointersFrom running blocks) :
    (running : Int) ≤ pointer ∧ pointer ≤ running + blocks.flatten.length := by
  induction blocks generalizing running with
  | nil => simp [pointersFrom] at member
  | cons block rest ih =>
      simp only [pointersFrom, List.mem_cons] at member
      rw [List.flatten_cons, List.length_append]
      cases member with
      | inl here => omega
      | inr later =>
          have bounds := ih later
          omega

end Entry

namespace PointerTable

theorem resolve_eq {base : Int} {offsets front rest : List Int} {offset padding : Int}
    (split : offsets = front ++ offset :: rest) (stop : Int) :
    resolve ⟨base, offsets, padding⟩ front.length stop =
      if rest.headD stop < offset then
        .error (.mismatch (.slotOrder front.length offset (rest.headD stop)) none)
      else .ok (base + offset, rest.headD stop - offset) := by
  have found : offsets[front.length]? = some offset := by
    rw [split, List.getElem?_append_right (Nat.le_refl _)]
    simp
  have next : offsets.getD (front.length + 1) stop = rest.headD stop := by
    rw [split, List.getD_eq_getElem?_getD, List.getElem?_append_right (by omega)]
    cases rest <;> simp
  simp only [resolve, resolveIn, found, next]
  split <;> rfl

/-- The offsets of consecutive blocks behind their own table. -/
theorem fits_pointersFrom {blocks : List Bytes} {padding : Nat} (room : 4 ≤ padding)
    (empty : blocks = [] → padding = 16)
    (bounded : ∀ offset ∈ Entry.pointersFrom (4 * blocks.length + padding) blocks,
      IsOffset offset) :
    Fits (Entry.pointersFrom (4 * blocks.length + padding) blocks) padding where
  bounded := bounded
  room := room
  first := by
    intro offset head
    rw [Entry.head?_pointersFrom head, Entry.length_pointersFrom]
    simp
  empty := by
    intro none
    have count := congrArg List.length none
    rw [Entry.length_pointersFrom] at count
    exact empty (List.eq_nil_of_length_eq_zero count)

end PointerTable

namespace Reader

variable {α β π : Type} [Piece π α] {buffer : Buffer} {item : Nat → Reader α}
  {offsets : List Int} {base stop place : Nat}

theorem reads_forEach_append_iff {item : β → Reader α} {front back : List β} {values : List α}
    {start : Nat} :
    (forEach item (front ++ back)).Reads buffer start values stop ↔
      ∃ first second middle, values = first ++ second ∧
        (forEach item front).Reads buffer start first middle ∧
          (forEach item back).Reads buffer middle second stop := by
  induction front generalizing start values with
  | nil =>
      simp only [List.nil_append, reads_forEach_nil_iff]
      constructor
      · intro read
        exact ⟨[], values, start, rfl, ⟨rfl, rfl⟩, read⟩
      · intro found
        obtain ⟨_, _, _, rfl, ⟨rfl, rfl⟩, read⟩ := found
        exact read
  | cons a rest ih =>
      simp only [List.cons_append, reads_forEach_cons_iff, ih]
      constructor
      · intro read
        obtain ⟨b, _, middle, rfl, head, first, second, last, rfl, front, back⟩ := read
        exact ⟨b :: first, second, last, rfl, ⟨b, first, middle, rfl, head, front⟩, back⟩
      · intro found
        obtain ⟨_, second, last, rfl, ⟨b, first, middle, rfl, head, front⟩, back⟩ := found
        exact ⟨b, first ++ second, middle, rfl, head, first, second, last, rfl, front, back⟩

theorem gives_forEach_append {item : β → Reader α} {front back : List β} {values others : List α}
    (first : (forEach item front).Gives buffer place values)
    (behind : ∀ middle, (forEach item back).Gives buffer middle others) :
    (forEach item (front ++ back)).Gives buffer place (values ++ others) := by
  obtain ⟨middle, read⟩ := first
  obtain ⟨stop, more⟩ := behind middle
  exact ⟨stop, reads_forEach_append_iff.mpr ⟨values, others, middle, rfl, read, more⟩⟩

/-- The reader of a slot that has a next one reads exactly the block up to that one. -/
def ReadsBlocks (item : Nat → Reader α) (π : Type) [Piece π α] (buffer : Buffer)
    (offsets : List Int) (base : Nat) : Prop :=
  ∀ {front rest : List Int} {offset next : Int} {place : Nat} {a : α},
    offsets = front ++ offset :: next :: rest →
      ((item front.length).Gives buffer place a ↔
        ∃ (start finish : Nat) (piece : π), base + offset = start ∧ base + next = finish ∧
          Piece.value piece = a ∧ buffer.Carries start finish (Piece.bytes piece))

/-- Blocks that are read one after the other lie without a gap before the last one. -/
theorem exists_blocks (blocks : ReadsBlocks item π buffer offsets base) (front : List Int)
    (final : Bytes) {rest : List Int} {values : List α} {last : Int} {finish : Nat} {data : Bytes}
    (split : offsets = front ++ (rest ++ [last]))
    (arrives : base + last = finish) (positive : ∀ offset ∈ offsets, 0 ≤ offset)
    (carried : buffer.Carries finish stop data)
    (given : (forEach item (List.range' front.length rest.length)).Gives buffer place values) :
    ∃ (first start : Nat) (pieces : List π),
      rest ++ [last] = Entry.pointersFrom first (pieces.map Piece.bytes ++ [final]) ∧
      start = base + first ∧ Piece.value pieces = values ∧
      buffer.Carries start stop (Piece.bytes pieces ++ data) := by
  induction rest generalizing front values place with
  | nil =>
      obtain ⟨_, done⟩ := given
      obtain ⟨rfl, _⟩ := reads_forEach_nil_iff.mp done
      have sign := positive last (by simp [split])
      obtain ⟨number, rfl⟩ := Int.eq_ofNat_of_zero_le sign
      exact ⟨number, finish, [], rfl, by omega, rfl, carried⟩
  | cons offset rest ih =>
      rw [List.length_cons, List.range'_succ] at given
      obtain ⟨_, done⟩ := given
      obtain ⟨a, others, _, rfl, slot, more⟩ := reads_forEach_cons_iff.mp done
      have moved : offsets = (front ++ [offset]) ++ (rest ++ [last]) := by simp [split]
      have count : (front ++ [offset]).length = front.length + 1 := by simp
      rw [← count] at more
      obtain ⟨second, middle, pieces, pointers, opens, rfl, behind⟩ := ih _ moved more.gives
      obtain ⟨next, tail, shape⟩ : ∃ next tail, rest ++ [last] = next :: tail := by
        cases rest with
        | nil => exact ⟨last, [], rfl⟩
        | cons next tail => exact ⟨next, tail ++ [last], rfl⟩
      have here : offsets = front ++ offset :: next :: tail := by
        rw [split, List.cons_append, shape]
      obtain ⟨start, ending, piece, begins, ends, rfl, block⟩ := (blocks here).mp slot.gives
      have head : next ∈
          (Entry.pointersFrom second (pieces.map Piece.bytes ++ [final])).head? := by
        rw [← pointers, shape]
        rfl
      have same := Entry.head?_pointersFrom head
      have sign := positive offset (by simp [split])
      obtain ⟨number, rfl⟩ := Int.eq_ofNat_of_zero_le sign
      have joins : ending = middle := by omega
      rw [joins] at block
      have size := block.stop_eq
      have advance : number + (Piece.bytes piece).length = second := by omega
      refine ⟨number, start, piece :: pieces, ?_, by omega, rfl, ?_⟩
      · have step : Entry.pointersFrom number ((piece :: pieces).map Piece.bytes ++ [final]) =
            (number : Int) :: Entry.pointersFrom (number + (Piece.bytes piece).length)
              (pieces.map Piece.bytes ++ [final]) := rfl
        rw [step, advance, ← pointers]
        rfl
      · rw [Piece.bytes_cons, List.append_assoc]
        exact block.append behind

/-- The whole table: blocks behind its filling, up to the last one, whose end is known. -/
theorem exists_table {start padding finish : Nat} {order : ByteOrder} {front : List Int}
    {offset : Int} {values : List α} {data : Bytes} (final : Bytes)
    (blocks : ReadsBlocks item π buffer offsets start) (fits : PointerTable.Fits offsets padding)
    (spelled : start + 4 * offsets.length + padding ≤ buffer.size →
      buffer.Carries start (start + 4 * offsets.length + padding)
        (PointerTable.spell order offsets padding))
    (split : offsets = front ++ [offset]) (arrives : start + offset = finish)
    (carried : buffer.Carries finish stop data)
    (given : (forEach item (List.range front.length)).Gives buffer place values) :
    ∃ pieces : List π, Piece.value pieces = values ∧
      offsets = Entry.pointersFrom (4 * (pieces.length + 1) + padding)
        (pieces.map Piece.bytes ++ [final]) ∧
      buffer.Carries start stop
        (PointerTable.spell order offsets padding ++ (Piece.bytes pieces ++ data)) := by
  have signs : ∀ offset ∈ offsets, 0 ≤ offset := fun offset member => (fits.bounded offset member).1
  rw [List.range_eq_range'] at given
  obtain ⟨first, begins, pieces, pointers, opens, shown, entries⟩ :=
    exists_blocks blocks [] final split arrives signs carried given
  have whole : offsets = Entry.pointersFrom first (pieces.map Piece.bytes ++ [final]) :=
    split.trans pointers
  have count : offsets.length = pieces.length + 1 := by
    rw [whole, Entry.length_pointersFrom]
    simp
  have head : (first : Int) ∈ offsets.head? := by
    rw [whole]
    cases pieces <;> rfl
  have size : first = 4 * (pieces.length + 1) + padding := by
    have place := fits.first first head
    omega
  have reached : begins ≤ buffer.size := Nat.le_trans entries.start_le entries.stop_le
  have ending : start + 4 * offsets.length + padding = begins := by omega
  rw [ending] at spelled
  rw [size] at whole
  exact ⟨pieces, shown, whole, (spelled reached).append entries⟩

/-- Blocks that lie without a gap are read one after the other. -/
theorem gives_blocks (blocks : ReadsBlocks item π buffer offsets base) {first middle : Nat}
    {pieces : List π} {final : Bytes} (front : List Int) (place : Nat)
    (split : offsets = front ++ Entry.pointersFrom first (pieces.map Piece.bytes ++ [final]))
    (carried : buffer.Carries (base + first) middle (Piece.bytes pieces)) :
    (forEach item (List.range' front.length pieces.length)).Gives buffer place
      (Piece.value pieces) := by
  induction pieces generalizing front first place with
  | nil => exact ⟨place, reads_forEach_nil_iff.mpr ⟨rfl, rfl⟩⟩
  | cons piece rest ih =>
      rw [Piece.bytes_cons] at carried
      obtain ⟨next, block, behind⟩ := Buffer.carries_append_iff.mp carried
      have size := block.stop_eq
      have advance : base + (first + (Piece.bytes piece).length) = next := by omega
      rw [← advance] at behind
      have moved : offsets = (front ++ [(first : Int)]) ++ Entry.pointersFrom
          (first + (Piece.bytes piece).length) (rest.map Piece.bytes ++ [final]) := by
        rw [split]
        simp [Entry.pointersFrom]
      have count : (front ++ [(first : Int)]).length = front.length + 1 := by simp
      rw [List.length_cons, List.range'_succ]
      refine gives_forEach_cons ?_ ?_
      · obtain ⟨tail, shape⟩ : ∃ tail, Entry.pointersFrom (first + (Piece.bytes piece).length)
            (rest.map Piece.bytes ++ [final]) =
              ((first + (Piece.bytes piece).length : Nat) : Int) :: tail := by
          cases rest with
          | nil => exact ⟨[], rfl⟩
          | cons other others => exact ⟨_, rfl⟩
        have here : offsets = front ++ (first : Int) ::
            ((first + (Piece.bytes piece).length : Nat) : Int) :: tail := by
          rw [moved, shape]
          simp
        exact (blocks here).mpr ⟨_, next, piece, by simp, by omega, rfl, block⟩
      · intro place
        rw [← count]
        exact ih _ place moved behind

/-- The whole table again, with the place of the last block. -/
theorem gives_table {start padding : Nat} {order : ByteOrder} {pieces : List π} {final data : Bytes}
    (blocks : ReadsBlocks item π buffer offsets start)
    (pointers : offsets = Entry.pointersFrom (4 * (pieces.length + 1) + padding)
      (pieces.map Piece.bytes ++ [final]))
    (carried : buffer.Carries start stop
      (PointerTable.spell order offsets padding ++ (Piece.bytes pieces ++ data))) :
    ∃ (front : List Int) (offset : Int) (finish : Nat), offsets = front ++ [offset] ∧
      front.length = pieces.length ∧ start + offset = finish ∧ buffer.Carries finish stop data ∧
      ∀ place, (forEach item (List.range pieces.length)).Gives buffer place
        (Piece.value pieces) := by
  have count : offsets.length = pieces.length + 1 := by
    rw [pointers, Entry.length_pointersFrom]
    simp
  obtain ⟨first, spelled, entries⟩ := Buffer.carries_append_iff.mp carried
  obtain ⟨finish, bounded, last⟩ := Buffer.carries_append_iff.mp entries
  have opened := spelled.stop_eq
  have ends := bounded.stop_eq
  rw [PointerTable.length_spell, count] at opened
  rw [opened] at bounded
  refine ⟨Entry.pointersFrom (4 * (pieces.length + 1) + padding) (pieces.map Piece.bytes),
    (4 * (pieces.length + 1) + padding + (Piece.bytes pieces).length : Nat), finish, ?_, ?_, ?_,
    last, ?_⟩
  · rw [pointers, Entry.pointersFrom_append]
    simp [Piece.bytes, List.flatMap, Entry.pointersFrom]
  · rw [Entry.length_pointersFrom, List.length_map]
  · omega
  · intro place
    rw [List.range_eq_range']
    exact gives_blocks blocks [] place pointers bounded

end Reader

end FighterData
