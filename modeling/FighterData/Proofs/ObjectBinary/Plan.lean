import FighterData.ObjectBinary
import FighterData.Proofs.Audio.Plan
import FighterData.Proofs.Entry.Plan

/-! How a whole file is laid out: the table of the starts, and the regions of the player, of the
objects and of the audio section without a gap. -/
namespace FighterData.ObjectBinary

structure Plan where
  padding : Nat
  player : PlayerEntry.Plan
  objects : List ObjectEntry.Plan
  audio : Audio.Plan
  room : 4 ≤ padding
  bounded : ∀ start ∈ Entry.pointersFrom (4 * (objects.length + 2) + padding)
    (Piece.bytes player :: (objects.map Piece.bytes ++ [Piece.bytes audio])),
    PointerTable.IsOffset start

namespace Plan

def regions (plan : Plan) : List Bytes :=
  Piece.bytes plan.player :: (plan.objects.map Piece.bytes ++ [Piece.bytes plan.audio])

/-- Where the region of the player starts. -/
def tableSize (plan : Plan) : Nat :=
  4 * (plan.objects.length + 2) + plan.padding

def starts (plan : Plan) : List Int :=
  Entry.pointersFrom plan.tableSize plan.regions

def bytes (plan : Plan) : Bytes :=
  PointerTable.spell .little plan.starts plan.padding ++ plan.regions.flatten

def binary (plan : Plan) : ObjectBinary :=
  ⟨Piece.value plan.player, Piece.value plan.objects, Piece.value plan.audio⟩

theorem length_regions (plan : Plan) : plan.regions.length = plan.objects.length + 2 := by
  simp [regions]

theorem length_starts (plan : Plan) : plan.starts.length = plan.objects.length + 2 := by
  rw [starts, Entry.length_pointersFrom, length_regions]

theorem tableFits (plan : Plan) : PointerTable.Fits plan.starts plan.padding := by
  have bounded := plan.bounded
  rw [← plan.length_regions] at bounded
  rw [starts, tableSize, ← plan.length_regions]
  refine PointerTable.fits_pointersFrom plan.room ?_ bounded
  intro none
  have count := plan.length_regions
  rw [none] at count
  cases count

end Plan

/-- The bounds of the sections that start at `starts`, when the next one starts at `last`. -/
def boundsOf (starts : List Int) (last : Int) : List (Int × Int) :=
  starts.zip (starts ++ [last]).tail

variable {π α : Type} [Piece π α] {reader : Int → Int → Reader α} {buffer : Buffer}
  {place stop : Nat}

theorem boundsOf_cons (start : Int) (starts : List Int) (last : Int) :
    boundsOf (start :: starts) last =
      (start, (starts ++ [last]).headD last) :: boundsOf starts last := by
  cases starts <;> simp [boundsOf]

/-- Sections that are read one after the other lie without a gap before the last one. -/
theorem exists_sections (sections : Reader.ReadsSections reader π) {starts : List Int} {last : Int}
    {values : List α} {finish : Nat} {data : Bytes} (final : Bytes) (arrives : last = finish)
    (carried : buffer.Carries finish stop data)
    (given : (Reader.forEach (fun bound : Int × Int => reader bound.1 bound.2)
      (boundsOf starts last)).Gives buffer place values) :
    ∃ (start : Nat) (pieces : List π),
      starts ++ [last] = Entry.pointersFrom start (pieces.map Piece.bytes ++ [final]) ∧
      Piece.value pieces = values ∧ buffer.Carries start stop (Piece.bytes pieces ++ data) := by
  induction starts generalizing values place with
  | nil =>
      obtain ⟨_, done⟩ := given
      obtain ⟨rfl, _⟩ := Reader.reads_forEach_nil_iff.mp done
      rw [arrives]
      exact ⟨finish, [], rfl, rfl, carried⟩
  | cons first rest ih =>
      rw [boundsOf_cons] at given
      obtain ⟨_, done⟩ := given
      obtain ⟨a, others, _, rfl, read, more⟩ := Reader.reads_forEach_cons_iff.mp done
      obtain ⟨second, pieces, pointers, rfl, behind⟩ := ih more.gives
      have next : (rest ++ [last]).headD last = second := by
        rw [pointers]
        cases pieces <;> rfl
      rw [next] at read
      obtain ⟨start, piece, rfl, rfl, block⟩ :=
        (sections (Nat.le_trans behind.start_le behind.stop_le)).mp read.gives
      have size := block.stop_eq
      refine ⟨start, piece :: pieces, ?_, rfl, ?_⟩
      · rw [List.cons_append, pointers, size]
        rfl
      · rw [Piece.bytes_cons, List.append_assoc]
        exact block.append behind

/-- Sections that lie without a gap are read one after the other. -/
theorem gives_sections (sections : Reader.ReadsSections reader π) {start finish : Nat}
    {pieces : List π} (carried : buffer.Carries start finish (Piece.bytes pieces)) (place : Nat) :
    (Reader.forEach (fun bound : Int × Int => reader bound.1 bound.2)
      (boundsOf (Entry.pointersFrom start (pieces.map Piece.bytes)) finish)).Gives buffer place
        (Piece.value pieces) := by
  induction pieces generalizing start place with
  | nil => exact Reader.gives_pure []
  | cons piece rest ih =>
      rw [Piece.bytes_cons] at carried
      obtain ⟨next, block, behind⟩ := Buffer.carries_append_iff.mp carried
      have size := block.stop_eq
      have following : (Entry.pointersFrom next (rest.map Piece.bytes) ++ [(finish : Int)]).headD
          finish = next := by
        cases rest with
        | nil =>
            have arrived := behind.eq_start_of_nil
            simp [Entry.pointersFrom, arrived]
        | cons other others => rfl
      rw [List.map_cons, Entry.pointersFrom, ← size, boundsOf_cons, following]
      exact Reader.gives_forEach_cons (sections.gives rfl rfl block) fun middle => ih behind middle

end FighterData.ObjectBinary
