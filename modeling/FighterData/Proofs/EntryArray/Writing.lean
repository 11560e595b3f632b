import FighterData.Proofs.EntryArray.Runs
import FighterData.Proofs.PointerTable.Writing

/-! Encoding an array is choosing its least plan. The table is filled up to the least multiple of
16, the entries are padded, the trailer follows at once, and the block is padded again. -/
namespace FighterData

namespace EntryArray

/-- Aliases that share an entry share its bytes. -/
theorem AliasesFit.checked {α : Type} {entries : List α} {aliases : List Int}
    (fits : AliasesFit entries aliases) (store : α → Bytes) :
    PointerTable.checkAliases (entries.map store) aliases = .ok () := by
  rw [PointerTable.checkAliases_eq_ok_iff]
  intro slot member
  obtain ⟨lower, upper, same⟩ := fits.shared slot member
  refine ⟨lower, by simpa using upper, ?_⟩
  rw [List.getElem?_map, List.getElem?_map, same]

/-- A table and its entries, closed by the filling of the table and padded. -/
theorem pad_closed {offsets : List Int} {padding after : Nat} {body : Bytes}
    (least : after = Alignment.gapNat (4 * offsets.length + padding + body.length + padding) 16) :
    Alignment.pad (PointerTable.spell .little offsets padding ++
      (body ++ Bytes.filled 0xFF padding)) Entry.blockAlignment =
        PointerTable.spell .little offsets padding ++ body ++ Bytes.trailer padding 0 after := by
  have length : (PointerTable.spell .little offsets padding ++
      (body ++ Bytes.filled 0xFF padding)).length =
        4 * offsets.length + padding + body.length + padding := by
    simp only [List.length_append, PointerTable.length_spell, Bytes.length_filled, Nat.add_assoc]
  rw [Alignment.pad, length, Entry.blockAlignment, ← least]
  simp [Bytes.trailer, Bytes.filled]

/-- The bytes of an array that is encoded. -/
def written (entries : List Bytes) (aliases : List Int) : Bytes :=
  PointerTable.spell .little (PointerTable.layOut entries aliases).1
      (PointerTable.leastPadding entries.length) ++
    ((PointerTable.layOut entries aliases).2.flatten ++
      Bytes.filled 0xFF (PointerTable.leastPadding entries.length))

theorem join_eq_ok_iff {entries : List Bytes} {aliases : List Int} {data : Bytes} :
    join entries aliases = .ok data ↔
      PointerTable.checkAliases entries aliases = .ok () ∧
      (∀ offset ∈ (PointerTable.layOut entries aliases).1, Width.u32.holds offset = true) ∧
      data = written entries aliases := by
  simp only [join, bind_eq_ok_iff, PointerTable.write_eq_ok_iff, pure, Except.pure,
    Except.ok.injEq]
  constructor
  · intro found
    obtain ⟨_, ⟨checked, fits, rfl⟩, rfl⟩ := found
    exact ⟨checked, fits, rfl⟩
  · intro found
    obtain ⟨checked, fits, rfl⟩ := found
    exact ⟨_, ⟨checked, fits, rfl⟩, rfl⟩

variable {π α : Type} [Piece π α]

namespace Run

/-- The entries of the slots of a run, with the zeros behind them. -/
def entries (run : Run π) : List Bytes :=
  List.replicate (run.copies + 1) run.bytes

theorem lt_of_mem_aliasesFrom {first slot : Nat} {runs : List (Run π)}
    (member : slot ∈ aliasesFrom first runs) : first < slot := by
  induction runs generalizing first with
  | nil => simp [aliasesFrom] at member
  | cons run rest ih =>
      rw [aliasesFrom] at member
      cases List.mem_append.mp member with
      | inl inside =>
          have bounds := List.mem_range'_1.mp inside
          omega
      | inr later =>
          have above := ih later
          omega

/-- Laying out the entries of runs gives their offsets, and stores each entry once. -/
theorem place_entries {aliases : List Int} {slot running : Nat} {previous : Int}
    {runs : List (Run π)}
    (shared : ∀ index, slot ≤ index →
      (aliases.contains (index : Int) = true ↔ index ∈ aliasesFrom slot runs)) :
    PointerTable.place aliases slot previous running (runs.flatMap entries) =
      (offsetsFrom running runs, runs.map bytes) := by
  induction runs generalizing slot running previous with
  | nil => rfl
  | cons run rest ih =>
      have own : ¬ aliases.contains (slot : Int) = true := by
        intro found
        have above := lt_of_mem_aliasesFrom ((shared slot (Nat.le_refl _)).mp found)
        omega
      have copied : ∀ index < run.copies,
          aliases.contains ((slot + 1 + index : Nat) : Int) = true := by
        intro index below
        refine (shared _ (by omega)).mpr ?_
        rw [aliasesFrom]
        exact List.mem_append_left _ (List.mem_range'_1.mpr ⟨by omega, by omega⟩)
      have others : ∀ index, slot + 1 + run.copies ≤ index →
          (aliases.contains (index : Int) = true ↔
            index ∈ aliasesFrom (slot + 1 + run.copies) rest) := by
        intro index above
        have place : slot + run.copies + 1 = slot + 1 + run.copies := by omega
        rw [shared index (by omega), aliasesFrom, List.mem_append, place]
        constructor
        · intro found
          cases found with
          | inl inside =>
              have bounds := List.mem_range'_1.mp inside
              omega
          | inr later => exact later
        · intro later
          exact Or.inr later
      have next : (running : Int) + run.bytes.length = (running + run.bytes.length : Nat) := rfl
      rw [List.flatMap_cons, entries, List.replicate_succ, List.cons_append, PointerTable.place,
        if_neg own, PointerTable.place_replicate _ _ copied, next, ih others]
      simp only [offsetsFrom, List.replicate_succ, List.map_cons, List.cons_append]

theorem length_entries (runs : List (Run π)) :
    (runs.flatMap entries).length = (runs.flatMap values).length := by
  induction runs with
  | nil => rfl
  | cons run rest ih => simp [entries, values, ih]

theorem layOut_entries (runs : List (Run π)) :
    PointerTable.layOut (runs.flatMap entries) ((aliasesFrom 0 runs).map Int.ofNat) =
      (offsetsFrom (PointerTable.startOf (runs.flatMap values).length) runs, runs.map bytes) := by
  rw [PointerTable.layOut, length_entries]
  refine place_entries fun index _ => ?_
  rw [List.contains_iff_mem, List.mem_map]
  constructor
  · intro found
    obtain ⟨number, member, same⟩ := found
    obtain rfl : number = index := Int.ofNat.inj same
    exact member
  · intro member
    exact ⟨index, member, rfl⟩

theorem written_entries (runs : List (Run π)) :
    written (runs.flatMap entries) ((aliasesFrom 0 runs).map Int.ofNat) =
      PointerTable.spell .little
          (offsetsFrom (PointerTable.startOf (runs.flatMap values).length) runs)
          (PointerTable.leastPadding (runs.flatMap values).length) ++
        (runs.flatMap bytes ++
          Bytes.filled 0xFF (PointerTable.leastPadding (runs.flatMap values).length)) := by
  rw [written, layOut_entries, length_entries]
  rfl

end Run

namespace Plan

/-- The bytes of the array without the zeros that close its block. -/
def contentLength (plan : Plan π) : Nat :=
  plan.tableSize + (plan.runs.flatMap Run.bytes).length + plan.before + plan.padding

theorem length_bytes (plan : Plan π) :
    (Piece.bytes plan).length = plan.contentLength + plan.after := by
  show plan.bytes.length = _
  simp only [bytes, contentLength, tableSize, List.length_append, PointerTable.length_spell,
    length_offsets, Bytes.length_trailer]
  omega

/-- The least plan of its entries. Each entry is padded to a multiple of `step`. -/
structure Canonical (plan : Plan π) (step : Nat) : Prop where
  table : IsLeast {total | 16 ∣ total ∧ 4 * plan.values.length < total} plan.tableSize
  entries : ∀ run ∈ plan.runs,
    IsLeast {total | step ∣ total ∧ (Piece.bytes run.piece).length ≤ total} run.bytes.length
  trailer : plan.before = 0
  block : IsLeast {total | 16 ∣ total ∧ plan.contentLength ≤ total} (Piece.bytes plan).length

variable {plan : Plan π} {step : Nat}

theorem Canonical.padding_eq (canonical : plan.Canonical step) :
    plan.padding = PointerTable.leastPadding plan.values.length :=
  PointerTable.isLeast_padding_iff.mp canonical.table

theorem Canonical.bytes_eq (canonical : plan.Canonical step) (positive : 0 < step)
    {run : Run π} (member : run ∈ plan.runs) :
    run.bytes = Alignment.pad (Piece.bytes run.piece) step := by
  have least := canonical.entries run member
  rw [Run.length_bytes, Alignment.isLeast_gap_iff positive] at least
  rw [Run.bytes, least]
  rfl

theorem Canonical.after_eq (canonical : plan.Canonical step) :
    plan.after = Alignment.gapNat plan.contentLength 16 := by
  have least := canonical.block
  rw [length_bytes, Alignment.isLeast_gap_iff (by decide)] at least
  exact least

end Plan

section Encoding

variable {bytesOf : α → Bytes} {step : Nat}

/-- What the entries of a value look like when they are encoded. -/
def padded (bytesOf : α → Bytes) (step : Nat) (values : List α) : List Bytes :=
  values.map fun a => Alignment.pad (bytesOf a) step

variable (spelled : ∀ piece : π, bytesOf (Piece.value piece) = Piece.bytes piece)

include spelled

theorem padded_values {runs : List (Run π)}
    (stored : ∀ run ∈ runs, run.bytes = Alignment.pad (Piece.bytes run.piece) step) :
    padded bytesOf step (runs.flatMap Run.values) = runs.flatMap Run.entries := by
  induction runs with
  | nil => rfl
  | cons run rest ih =>
      have behind := ih fun other member => stored other (by simp [member])
      have head : padded bytesOf step run.values = run.entries := by
        simp [padded, Run.values, Run.entries, stored run (by simp), spelled]
      rw [List.flatMap_cons, List.flatMap_cons, ← behind, ← head]
      simp [padded]

variable {plan : Plan π}

theorem Plan.Canonical.offsets_eq (canonical : plan.Canonical step) (positive : 0 < step) :
    (PointerTable.layOut (padded bytesOf step plan.values) plan.aliases).1 = plan.offsets := by
  have entries := padded_values spelled fun run member => canonical.bytes_eq positive member
  rw [Plan.values, entries, Plan.aliases, Run.layOut_entries, Plan.offsets, Plan.tableSize,
    canonical.padding_eq]
  rfl

/-- The least plan is what encoding writes. -/
theorem Plan.Canonical.written_eq (canonical : plan.Canonical step) (positive : 0 < step) :
    Alignment.pad (written (padded bytesOf step plan.values) plan.aliases) Entry.blockAlignment =
      Piece.bytes plan := by
  have entries := padded_values spelled fun run member => canonical.bytes_eq positive member
  have padding := canonical.padding_eq
  have whole : written (padded bytesOf step plan.values) plan.aliases =
      PointerTable.spell .little plan.offsets plan.padding ++
        (plan.runs.flatMap Run.bytes ++ Bytes.filled 0xFF plan.padding) := by
    rw [Plan.values, entries, Plan.aliases, Run.written_entries, Plan.offsets, Plan.tableSize,
      padding]
    rfl
  have after : plan.after = Alignment.gapNat (4 * plan.offsets.length + plan.padding +
      (plan.runs.flatMap Run.bytes).length + plan.padding) 16 := by
    rw [canonical.after_eq, Plan.contentLength, Plan.tableSize, canonical.trailer,
      Plan.length_offsets]
    rfl
  rw [whole, pad_closed after, ← canonical.trailer]
  rfl

/-- Entries and aliases that fit have a least plan, as long as its offsets stay below the closing
word. -/
theorem exists_canonical {pieces : List π} {aliases : List Int} (positive : 0 < step)
    (fits : AliasesFit pieces aliases)
    (short : (written (padded bytesOf step (Piece.value pieces)) aliases).length <
      PointerTable.sentinel) :
    ∃ plan : Plan π, plan.Canonical step ∧ Piece.value plan = (Piece.value pieces, aliases) := by
  obtain ⟨slots, rfl, fitting⟩ := fits.exists_slots
  obtain ⟨runs, rfl, rfl, gaps⟩ :=
    Run.exists_runs (fun piece => Alignment.gapNat (Piece.bytes piece).length step) fitting
  have stored : ∀ run ∈ runs, run.bytes = Alignment.pad (Piece.bytes run.piece) step := by
    intro run member
    rw [Run.bytes, gaps run member]
    rfl
  have room := PointerTable.leastPadding_bounds (runs.flatMap Run.values).length
  rw [Run.value_pieces, padded_values spelled stored, Run.written_entries] at short
  simp only [List.length_append, PointerTable.length_spell, Run.length_offsetsFrom,
    Bytes.length_filled] at short
  have bounded : ∀ offset ∈ Run.offsetsFrom (4 * (runs.flatMap Run.values).length +
      PointerTable.leastPadding (runs.flatMap Run.values).length) runs,
        PointerTable.IsOffset offset := by
    intro offset member
    have bounds := Run.offset_le_of_mem member
    exact ⟨by omega, by omega⟩
  let plan : Plan π := {
    runs := runs
    padding := PointerTable.leastPadding (runs.flatMap Run.values).length
    before := 0
    after := Alignment.gapNat (PointerTable.startOf (runs.flatMap Run.values).length +
      (runs.flatMap Run.bytes).length + 0 +
        PointerTable.leastPadding (runs.flatMap Run.values).length) 16
    room := room.1
    empty := by
      intro none
      rw [none]
      rfl
    bounded := bounded }
  refine ⟨plan, ⟨?_, ?_, rfl, ?_⟩, ?_⟩
  · exact PointerTable.isLeast_padding_iff.mpr rfl
  · intro run member
    rw [Run.length_bytes]
    exact (Alignment.isLeast_gap_iff positive).mpr (gaps run member)
  · rw [Plan.length_bytes]
    exact (Alignment.isLeast_gap_iff (by decide)).mpr rfl
  · rw [Run.value_pieces]
    rfl

end Encoding

end EntryArray

end FighterData
