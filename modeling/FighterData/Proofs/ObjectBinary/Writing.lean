import FighterData.Proofs.Audio.Writing
import FighterData.Proofs.Entry.Writing
import FighterData.Proofs.ObjectBinary.Plan

/-! Encoding a whole file. A value that is well formed is encoded exactly if every offset that is
laid out, in any of its tables and headers, fits its word. -/
namespace FighterData.ObjectBinary

/-- A value that can be encoded and read again: its numbers fit their fields, its alias lists name
slots that share an entry, its sprite arrays end where the scan ends, and its scripts end once. -/
structure WellFormed (binary : ObjectBinary) : Prop where
  player : binary.player.Fits
  objects : ∀ object ∈ binary.objects, object.Fits

/-- The regions behind the table. -/
def regions (binary : ObjectBinary) : List Bytes :=
  binary.player.bytes :: (binary.objects.map ObjectEntry.bytes ++ [binary.audio.written])

/-- Every offset and every pointer of the file, from the inner tables out. -/
def offsets (binary : ObjectBinary) : List Int :=
  binary.player.offsets ++ binary.objects.flatMap ObjectEntry.offsets ++
    (PointerTable.layOut binary.audio.blobs []).1 ++ (PointerTable.layOut binary.regions []).1

def bytes (binary : ObjectBinary) : Bytes :=
  PointerTable.spell .little (PointerTable.layOut binary.regions []).1
    (PointerTable.leastPadding binary.regions.length) ++ binary.regions.flatten

theorem encode_eq_ok_iff {binary : ObjectBinary} (fits : binary.WellFormed) {data : Bytes} :
    binary.encode = .ok data ↔
      (∀ offset ∈ binary.offsets, Width.u32.holds offset = true) ∧ data = binary.bytes := by
  have objects (encoded : List Bytes) : binary.objects.mapM ObjectEntry.encode = .ok encoded ↔
      (∀ object ∈ binary.objects, ∀ offset ∈ object.offsets, Width.u32.holds offset = true) ∧
        encoded = binary.objects.map ObjectEntry.bytes :=
    mapM_eq_ok_iff fun object member _ => ObjectEntry.encode_eq_ok_iff (fits.objects object member)
  have written (result : Bytes × Bytes) : PointerTable.write binary.regions
      PointerTable.defaultAlignment .little false [] = .ok result ↔
        (∀ offset ∈ (PointerTable.layOut binary.regions []).1, Width.u32.holds offset = true) ∧
          result = (PointerTable.spell .little (PointerTable.layOut binary.regions []).1
            (PointerTable.leastPadding binary.regions.length), binary.regions.flatten) := by
    rw [PointerTable.write_nil_eq_ok_iff]
    simp only [Bool.false_eq_true, if_false, List.append_nil]
  simp only [encode, bind_eq_ok_iff, PlayerEntry.encode_eq_ok_iff fits.player, objects,
    Audio.encode_eq_ok_iff, pure, Except.pure, Except.ok.injEq, offsets, List.forall_mem_append,
    List.forall_mem_flatMap]
  constructor
  · intro found
    obtain ⟨_, ⟨player, rfl⟩, _, ⟨each, rfl⟩, _, ⟨audio, rfl⟩, _, table, rfl⟩ := found
    obtain ⟨starts, rfl⟩ := (written _).mp table
    exact ⟨⟨⟨⟨player, each⟩, audio⟩, starts⟩, rfl⟩
  · intro found
    obtain ⟨⟨⟨⟨player, each⟩, audio⟩, starts⟩, rfl⟩ := found
    exact ⟨_, ⟨player, rfl⟩, _, ⟨each, rfl⟩, _, ⟨audio, rfl⟩, _, (written _).mpr ⟨starts, rfl⟩, rfl⟩

end FighterData.ObjectBinary
