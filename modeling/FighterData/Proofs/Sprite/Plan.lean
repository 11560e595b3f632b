import FighterData.Proofs.PointerTable.Blocks
import FighterData.Proofs.Sprite.Scan

/-! How an array of sprites is laid out. Every sprite but the last fills its block; the last one
ends where the scan of its payload ends, and the trailer stands behind it. -/
namespace FighterData.Sprite

/-- A sprite that reaches to the next one. -/
structure BoundedPiece where
  header : List Int
  fits : headerLayout.holds header = true
  payload : Bytes

instance : Piece BoundedPiece Sprite where
  value piece := ⟨piece.header, piece.payload, []⟩
  bytes piece := headerLayout.spell piece.header ++ piece.payload

/-- The last sprite, whose end the scan finds. -/
structure LastPiece where
  header : List Int
  fits : headerLayout.holds header = true
  payload : Bytes
  terminator : Bytes
  ends : Ends payload terminator

instance : Piece LastPiece Sprite where
  value piece := ⟨piece.header, piece.payload, piece.terminator⟩
  bytes piece := headerLayout.spell piece.header ++ (piece.payload ++ piece.terminator)

theorem length_headerSpell {header : List Int} (fits : headerLayout.holds header = true) :
    (headerLayout.spell header).length = headerSize :=
  Layout.length_spell fits

/-- The sprites of an array: none, or some that are bounded and the last one. -/
inductive Row where
  | empty
  | row (bounded : List BoundedPiece) (last : LastPiece)

namespace Row

def sprites : Row → List Sprite
  | empty => []
  | row bounded last => Piece.value bounded ++ [Piece.value last]

def blocks : Row → List Bytes
  | empty => []
  | row bounded last => bounded.map Piece.bytes ++ [Piece.bytes last]

theorem length_blocks (sprites : Row) : sprites.blocks.length = sprites.sprites.length := by
  cases sprites with
  | empty => rfl
  | row bounded last => simp [blocks, Row.sprites, Piece.value]

end Row

structure Plan where
  row : Row
  padding : Nat
  before : Nat
  after : Nat
  room : 4 ≤ padding
  empty : row.blocks = [] → padding = 16
  bounded : ∀ offset ∈ Entry.pointersFrom (4 * row.blocks.length + padding) row.blocks,
    PointerTable.IsOffset offset

namespace Plan

/-- Where the first sprite starts. -/
def tableSize (plan : Plan) : Nat :=
  4 * plan.row.blocks.length + plan.padding

def offsets (plan : Plan) : List Int :=
  Entry.pointersFrom plan.tableSize plan.row.blocks

def bytes (plan : Plan) : Bytes :=
  PointerTable.spell .little plan.offsets plan.padding ++ plan.row.blocks.flatten
    ++ Bytes.trailer plan.padding plan.before plan.after

instance : Piece Plan (List Sprite) where
  value plan := plan.row.sprites
  bytes := bytes

theorem tableFits (plan : Plan) : PointerTable.Fits plan.offsets plan.padding :=
  PointerTable.fits_pointersFrom plan.room plan.empty plan.bounded

end Plan

section Reading

variable {buffer : Buffer} {base padding place stop : Nat} {offsets : List Int}

theorem readBounded_readsBlocks (length : Int) (bounded : ∀ offset ∈ offsets, 0 ≤ offset) :
    Reader.ReadsBlocks (readBounded ⟨base, offsets, padding⟩ base length) BoundedPiece buffer
      offsets base := by
  intro front rest offset next place sprite split
  have resolved : PointerTable.resolve ⟨base, offsets, padding⟩ front.length (length - base) =
      if next < offset then .error (.mismatch (.slotOrder front.length offset next) none)
      else .ok (base + offset, next - offset) := PointerTable.resolve_eq split _
  have sign := bounded offset (by simp [split])
  constructor
  · intro given
    simp only [readBounded, Reader.gives_bind_iff, Reader.reads_lift_iff, resolved] at given
    obtain ⟨_, _, ⟨success, rfl⟩, given⟩ := given
    split at success
    next => cases success
    next ordered =>
      obtain rfl := Except.ok.inj success
      by_cases short : next - offset < headerSize
      · -- a block shorter than its header is refused, under one name or the other
        by_cases none : next - offset ≤ 0
        · simp [short, none, Reader.gives_bind_iff, Reader.not_reads_refuse] at given
        · simp [short, none, Reader.gives_bind_iff, Reader.not_reads_refuse] at given
      · have some : ¬ next - offset ≤ 0 := by simp only [headerSize] at short; omega
        simp only [if_neg some, if_neg short, Reader.gives_bind_iff, Reader.reads_seek_iff,
          Reader.reads_fields_iff_spell, Reader.reads_bytes_iff] at given
        obtain ⟨_, start, ⟨begins, _⟩, header, middle, ⟨fits, first⟩, payload, finish,
          ⟨size, second⟩, done⟩ := given
        obtain rfl := Reader.eq_of_gives_pure done
        have words := first.stop_eq
        rw [length_headerSpell fits] at words
        have ends := second.stop_eq
        exact ⟨start, finish, ⟨header, fits, payload⟩, begins, by omega, rfl, first.append second⟩
  · intro found
    obtain ⟨start, finish, piece, begins, ends, rfl, carried⟩ := found
    obtain ⟨middle, first, second⟩ := Buffer.carries_append_iff.mp carried
    have header := first.stop_eq
    rw [length_headerSpell piece.fits] at header
    have size := second.stop_eq
    have long : ¬ next - offset < headerSize := by omega
    have some : ¬ next - offset ≤ 0 := by simp only [headerSize] at long; omega
    have ordered : ¬ next < offset := by omega
    rw [if_neg ordered] at resolved
    unfold readBounded
    refine (Reader.reads_lift resolved).bind_gives ?_
    simp only [if_neg long, if_neg some]
    refine (Reader.reads_seek begins (by have inside := first.stop_le; omega)).bind_gives ?_
    refine (Reader.reads_fields_iff_spell.mpr ⟨piece.fits, first⟩).bind_gives ?_
    refine (Reader.reads_bytes_iff.mpr ⟨?_, second⟩).bind_gives (Reader.gives_pure _)
    omega

theorem exists_of_gives_readLast {front : List Int} {offset : Int} {sprite : Sprite}
    (positive : 0 < padding) (split : offsets = front ++ [offset]) (inside : stop ≤ buffer.size)
    (given : (readLast ⟨base, offsets, padding⟩ base stop front.length).Gives buffer place sprite) :
    ∃ (start finish : Nat) (piece : LastPiece) (before after : Nat), base + offset = start ∧
      Piece.value piece = sprite ∧ buffer.Carries start finish (Piece.bytes piece) ∧
      buffer.Carries finish stop (Bytes.trailer padding before after) := by
  simp only [readLast, Reader.gives_bind_iff, Reader.reads_lift_iff,
    PointerTable.resolve_eq split] at given
  obtain ⟨_, _, ⟨success, rfl⟩, given⟩ := given
  split at success
  next => cases success
  next ordered =>
    obtain rfl := Except.ok.inj success
    simp only [Reader.reads_seek_iff, Reader.reads_fields_iff_spell, Reader.reads_position_iff,
      Reader.reads_buffer_iff] at given
    obtain ⟨_, start, ⟨begins, _⟩, header, _, ⟨fits, first⟩, _, _, ⟨rfl, rfl⟩, _, _, ⟨rfl, rfl⟩,
      ⟨payload, terminator⟩, body, ⟨found, rfl⟩, _, _, checked, _, _, _, done⟩ := given
    obtain rfl := Reader.eq_of_gives_pure done
    obtain ⟨finish, _, second, ends⟩ := (findEnd_eq_ok_iff inside).mp found
    have size := second.stop_eq
    rw [List.length_append] at size
    have arrived : (body : Int) + payload.length + terminator.length = finish := by omega
    obtain ⟨_, before, after, trailer⟩ :=
      (Reader.reads_expectTrailer_inside_iff positive arrived rfl inside).mp checked
    exact ⟨start, finish, ⟨header, fits, payload, terminator, ends⟩, before, after, begins, rfl,
      first.append second, trailer⟩

theorem gives_readLast {front : List Int} {offset : Int} {start finish before after : Nat}
    {piece : LastPiece} (positive : 0 < padding) (split : offsets = front ++ [offset])
    (begins : base + offset = start) (carried : buffer.Carries start finish (Piece.bytes piece))
    (trailer : buffer.Carries finish stop (Bytes.trailer padding before after)) :
    (readLast ⟨base, offsets, padding⟩ base stop front.length).Gives buffer place
      (Piece.value piece) := by
  have inside := trailer.stop_le
  have order := trailer.start_le
  have reached := carried.start_le
  obtain ⟨body, first, second⟩ := Buffer.carries_append_iff.mp carried
  have size := second.stop_eq
  rw [List.length_append] at size
  have resolved : PointerTable.resolve ⟨base, offsets, padding⟩ front.length (stop - base) =
      .ok (base + offset, stop - base - offset) := by
    rw [PointerTable.resolve_eq split, List.headD_nil, if_neg (by omega)]
  have found : findEnd buffer body stop = .ok (piece.payload, piece.terminator) :=
    (findEnd_eq_ok_iff inside).mpr ⟨finish, order, second, piece.ends⟩
  have arrived : (body : Int) + piece.payload.length + piece.terminator.length = finish := by omega
  unfold readLast
  refine (Reader.reads_lift resolved).bind_gives ?_
  refine (Reader.reads_seek begins (by omega)).bind_gives ?_
  refine (Reader.reads_fields_iff_spell.mpr ⟨piece.fits, first⟩).bind_gives ?_
  refine Reader.reads_position.bind_gives ?_
  refine (Reader.reads_buffer_iff.mpr ⟨rfl, rfl⟩).bind_gives ?_
  refine (Reader.reads_lift found).bind_gives ?_
  refine (Reader.reads_expectTrailer positive arrived rfl trailer).bind_gives ?_
  exact (Reader.reads_note _).bind_gives (Reader.gives_pure _)

/-- An array of sprites that is read up to an end inside the buffer is carried there as a plan. -/
theorem exists_plan_of_gives {first : Int} {sprites : List Sprite} (inside : stop ≤ buffer.size)
    (given : (readArray first stop).Gives buffer place sprites) :
    ∃ (start : Nat) (plan : Plan), first = start ∧ Piece.value plan = sprites ∧
      buffer.Carries start stop (Piece.bytes plan) := by
  simp only [readArray, Reader.gives_bind_iff] at given
  obtain ⟨table, middle, tabled, given⟩ := given
  obtain ⟨start, padding, rfl, shape, fits, _, _, spelled⟩ := PointerTable.exists_of_reads tabled
  rw [shape] at given
  have positive : 0 < padding := by have room := fits.room; omega
  cases count : table.offsets.length with
  | zero =>
      have none : table.offsets = [] := List.eq_nil_of_length_eq_zero count
      simp only [none, List.length_nil, EntryArray.expectEmpty, Reader.gives_bind_iff] at given
      obtain ⟨_, _, checked, done⟩ := given
      obtain rfl := Reader.eq_of_gives_pure done
      have begins : (start : Int) + PointerTable.size ⟨start, [], padding⟩ =
          (start + padding : Nat) := by
        simp [PointerTable.size]
      obtain ⟨_, before, after, trailer⟩ :=
        (Reader.reads_expectTrailer_inside_iff positive begins rfl inside).mp checked
      have reached := Nat.le_trans trailer.start_le inside
      rw [none] at spelled fits
      have front := spelled (by simpa using reached)
      refine ⟨start, ⟨.empty, padding, before, after, fits.room, fun _ => fits.empty rfl, ?_⟩, rfl,
        rfl, ?_⟩
      · simp [Row.blocks, Entry.pointersFrom]
      · have joined := front.append trailer
        simpa [Piece.bytes, Plan.bytes, Plan.offsets, Row.blocks, Entry.pointersFrom] using joined
  | succ last =>
      simp only [count, Reader.gives_bind_iff] at given
      obtain ⟨bounded, _, slots, final, _, ending, done⟩ := given
      obtain rfl := Reader.eq_of_gives_pure done
      obtain ⟨front, offset, split⟩ : ∃ front offset, table.offsets = front ++ [offset] := by
        cases List.eq_nil_or_concat table.offsets with
        | inl none => simp [none] at count
        | inr found => simpa using found
      have length : front.length = last := by
        rw [split] at count
        simpa using count
      rw [← length] at ending slots
      obtain ⟨arrival, finish, piece, before, after, arrives, rfl, body, trailer⟩ :=
        exists_of_gives_readLast positive split inside ending.gives
      have signs : ∀ offset ∈ table.offsets, 0 ≤ offset :=
        fun offset member => (fits.bounded offset member).1
      obtain ⟨pieces, rfl, pointers, entries⟩ := Reader.exists_table (Piece.bytes piece)
        (readBounded_readsBlocks stop signs) fits spelled split arrives (body.append trailer)
        slots.gives
      let row : Row := .row pieces piece
      have count : row.blocks.length = pieces.length + 1 := by simp [row, Row.blocks]
      have bounded : ∀ offset ∈ Entry.pointersFrom (4 * row.blocks.length + padding) row.blocks,
          PointerTable.IsOffset offset := by
        rw [count]
        rw [pointers] at fits
        exact fits.bounded
      have some : row.blocks ≠ [] := by simp [row, Row.blocks]
      let plan : Plan := ⟨row, padding, before, after, fits.room, fun none => absurd none some,
        bounded⟩
      have planned : plan.offsets = table.offsets := by
        rw [pointers, ← count]
        rfl
      refine ⟨start, plan, rfl, rfl, ?_⟩
      rw [← planned] at entries
      simpa [Piece.bytes, Plan.bytes, plan, row, Row.blocks, List.flatMap] using entries

/-- A plan of sprites that the buffer carries is read as its values. -/
theorem gives_of_plan {start : Nat} {plan : Plan}
    (carried : buffer.Carries start stop (Piece.bytes plan)) :
    (readArray start stop).Gives buffer place (Piece.value plan) := by
  have positive : 0 < plan.padding := by have room := plan.room; omega
  have whole : Piece.bytes plan = PointerTable.spell .little plan.offsets plan.padding ++
      (plan.row.blocks.flatten ++ Bytes.trailer plan.padding plan.before plan.after) :=
    List.append_assoc _ _ _
  rw [whole] at carried
  obtain ⟨first, spelled, entries⟩ := Buffer.carries_append_iff.mp carried
  have opened := spelled.stop_eq
  simp only [PointerTable.length_spell] at opened
  unfold readArray
  refine (PointerTable.reads_of_carries plan.tableFits spelled).bind_gives ?_
  cases row : plan.row with
  | empty =>
      have none : plan.offsets = [] := by simp [Plan.offsets, row, Row.blocks, Entry.pointersFrom]
      have trailer : buffer.Carries first stop
          (Bytes.trailer plan.padding plan.before plan.after) := by
        simpa [row, Row.blocks] using entries
      have size : (start : Int) + PointerTable.size ⟨start, plan.offsets, plan.padding⟩ =
          (first : Nat) := by
        simp only [none, List.length_nil, PointerTable.size] at opened ⊢
        omega
      have value : Piece.value plan = ([] : List Sprite) := by simp [Piece.value, row, Row.sprites]
      rw [value]
      simp only [none, List.length_nil] at size ⊢
      exact (Reader.reads_expectTrailer positive size rfl trailer).bind_gives (Reader.gives_pure _)
  | row pieces piece =>
      have count : plan.offsets.length = pieces.length + 1 := by
        simp [Plan.offsets, row, Row.blocks]
      have pointers : plan.offsets = Entry.pointersFrom (4 * (pieces.length + 1) + plan.padding)
          (pieces.map Piece.bytes ++ [Piece.bytes piece]) := by
        simp [Plan.offsets, Plan.tableSize, row, Row.blocks]
      have parts : Piece.bytes plan = PointerTable.spell .little plan.offsets plan.padding ++
          (Piece.bytes pieces ++
            (Piece.bytes piece ++ Bytes.trailer plan.padding plan.before plan.after)) := by
        rw [whole]
        simp [row, Row.blocks, Piece.bytes, List.flatMap]
      have value : Piece.value plan = Piece.value pieces ++ [Piece.value piece] := by
        simp [Piece.value, row, Row.sprites]
      have reads : Reader.ReadsBlocks (readBounded ⟨start, plan.offsets, plan.padding⟩ start stop)
          BoundedPiece buffer plan.offsets start :=
        readBounded_readsBlocks stop fun offset member => (plan.tableFits.bounded offset member).1
      rw [← whole, parts] at carried
      obtain ⟨front, offset, finish, split, length, arrives, ending, slots⟩ :=
        Reader.gives_table reads pointers carried
      obtain ⟨last, body, trailer⟩ := Buffer.carries_append_iff.mp ending
      simp only [count, value]
      refine (slots _).bind fun middle => ?_
      rw [← length]
      exact (gives_readLast positive split arrives body trailer).bind fun place =>
        Reader.gives_pure _

theorem readArray_readsSections : Reader.ReadsSections readArray Plan := by
  intro buffer stop place first sprites inside
  constructor
  · intro given
    exact exists_plan_of_gives inside given
  · intro found
    obtain ⟨start, plan, rfl, rfl, carried⟩ := found
    exact gives_of_plan carried

end Reading

end FighterData.Sprite
