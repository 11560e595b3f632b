import FighterData.Proofs.EntryArray.Plan

/-! Runs and alias lists tell the same. The alias slots of runs are strictly increasing and each of
them repeats the slot before it; and every such list comes from exactly the runs that it cuts the
slots into. -/
namespace FighterData.EntryArray

/-- The alias list of an array that can be encoded: strictly increasing, and each alias names a
slot that has one before it with the same entry. -/
structure AliasesFit {α : Type} (entries : List α) (aliases : List Int) : Prop where
  increasing : aliases.Pairwise (· < ·)
  shared : ∀ slot ∈ aliases, 1 ≤ slot ∧ slot < entries.length ∧
    entries[slot.toNat]? = entries[slot.toNat - 1]?

/-- The same about the slots from `first` on. -/
structure SlotsFit {α : Type} (first : Nat) (entries : List α) (slots : List Nat) : Prop where
  increasing : slots.Pairwise (· < ·)
  shared : ∀ slot ∈ slots, first < slot ∧ slot < first + entries.length ∧
    entries[slot - first]? = entries[slot - first - 1]?

theorem SlotsFit.aliasesFit {α : Type} {entries : List α} {slots : List Nat}
    (fits : SlotsFit 0 entries slots) : AliasesFit entries (slots.map Int.ofNat) where
  increasing := by
    refine List.Pairwise.map Int.ofNat ?_ fits.increasing
    intro first second order
    exact Int.ofNat_lt.mpr order
  shared := by
    intro slot member
    obtain ⟨number, inside, rfl⟩ := List.mem_map.mp member
    obtain ⟨lower, upper, same⟩ := fits.shared number inside
    refine ⟨Int.ofNat_le.mpr lower, Int.ofNat_lt.mpr (by omega), ?_⟩
    simpa using same

theorem AliasesFit.exists_slots {α : Type} {entries : List α} {aliases : List Int}
    (fits : AliasesFit entries aliases) :
    ∃ slots : List Nat, aliases = slots.map Int.ofNat ∧ SlotsFit 0 entries slots := by
  have whole : (aliases.map Int.toNat).map Int.ofNat = aliases := by
    rw [List.map_map]
    conv => rhs; rw [← List.map_id aliases]
    apply List.map_congr_left
    intro slot member
    have bounds := fits.shared slot member
    show Int.ofNat slot.toNat = slot
    exact Int.toNat_of_nonneg (by omega)
  refine ⟨aliases.map Int.toNat, whole.symm, ?_, ?_⟩
  · rw [List.pairwise_map]
    refine fits.increasing.imp_of_mem ?_
    intro first second here there order
    have bounds := fits.shared first here
    omega
  · intro slot member
    obtain ⟨number, inside, rfl⟩ := List.mem_map.mp member
    obtain ⟨lower, upper, same⟩ := fits.shared number inside
    exact ⟨by omega, by omega, by simpa using same⟩

/-- Slots behind the second one do not look at the first entry. -/
theorem SlotsFit.tail {α : Type} {first : Nat} {entry : α} {rest : List α} {slots : List Nat}
    (fits : SlotsFit first (entry :: rest) slots) (beyond : ∀ slot ∈ slots, first + 1 < slot) :
    SlotsFit (first + 1) rest slots where
  increasing := fits.increasing
  shared := by
    intro slot member
    obtain ⟨_, upper, same⟩ := fits.shared slot member
    have lower := beyond slot member
    rw [List.length_cons] at upper
    have here : slot - first = slot - (first + 1) + 1 := by omega
    have before : slot - first - 1 = slot - (first + 1) - 1 + 1 := by omega
    rw [before, here, List.getElem?_cons_succ, List.getElem?_cons_succ] at same
    exact ⟨lower, by omega, same⟩

namespace Run

variable {π α : Type} [Piece π α]

/-- The pieces of a run, one for each slot. -/
def pieces (run : Run π) : List π :=
  List.replicate (run.copies + 1) run.piece

theorem value_pieces (runs : List (Run π)) :
    Piece.value (runs.flatMap pieces) = runs.flatMap values := by
  induction runs with
  | nil => rfl
  | cons run rest ih =>
      rw [List.flatMap_cons, List.flatMap_cons, Piece.value_append, ih]
      congr 1
      simp [pieces, values, Piece.value]

theorem slotsFit (first : Nat) (runs : List (Run π)) :
    SlotsFit first (runs.flatMap values) (aliasesFrom first runs) := by
  induction runs generalizing first with
  | nil => exact ⟨List.Pairwise.nil, by simp [aliasesFrom]⟩
  | cons run rest ih =>
      have behind := ih (first + run.copies + 1)
      have size : run.values.length = run.copies + 1 := by simp [values]
      refine ⟨?_, ?_⟩
      · rw [aliasesFrom, List.pairwise_append]
        refine ⟨List.pairwise_lt_range', behind.increasing, ?_⟩
        intro here inside there later
        have bounds := List.mem_range'_1.mp inside
        have further := (behind.shared there later).1
        omega
      · intro slot member
        rw [List.flatMap_cons, List.length_append, size]
        rw [aliasesFrom] at member
        cases List.mem_append.mp member with
        | inl inside =>
            have bounds := List.mem_range'_1.mp inside
            refine ⟨by omega, by omega, ?_⟩
            rw [List.getElem?_append_left (by omega), List.getElem?_append_left (by omega)]
            simp only [values, List.getElem?_replicate]
            rw [if_pos (by omega), if_pos (by omega)]
        | inr later =>
            obtain ⟨lower, upper, same⟩ := behind.shared slot later
            refine ⟨by omega, by omega, ?_⟩
            rw [List.getElem?_append_right (by omega), List.getElem?_append_right (by omega), size]
            have here : slot - first - (run.copies + 1) = slot - (first + run.copies + 1) := by
              omega
            have before : slot - first - 1 - (run.copies + 1) =
                slot - (first + run.copies + 1) - 1 := by omega
            rw [here, before]
            exact same

/-- Slots that fit cut the pieces into runs. -/
theorem exists_runs (gapOf : π → Nat) {first : Nat} {each : List π} {slots : List Nat}
    (fits : SlotsFit first each slots) :
    ∃ runs : List (Run π), runs.flatMap pieces = each ∧ aliasesFrom first runs = slots ∧
      ∀ run ∈ runs, run.gap = gapOf run.piece := by
  induction each generalizing first slots with
  | nil =>
      cases slots with
      | nil => exact ⟨[], rfl, rfl, by simp⟩
      | cons slot rest =>
          have bounds := fits.shared slot (by simp)
          simp only [List.length_nil] at bounds
          omega
  | cons piece rest ih =>
      cases slots with
      | nil =>
          obtain ⟨runs, rfl, aliases, gaps⟩ := ih (fits.tail (by simp))
          refine ⟨⟨piece, 0, gapOf piece⟩ :: runs, rfl, ?_, ?_⟩
          · rw [aliasesFrom]
            exact aliases
          · simpa using gaps
      | cons slot slots =>
          have bounds := fits.shared slot (by simp)
          have later : ∀ other ∈ slots, slot < other := (List.pairwise_cons.mp fits.increasing).1
          by_cases shared : slot = first + 1
          · -- the second slot is an alias, so it belongs to the run of the first one
            have others : SlotsFit first (piece :: rest) slots :=
              ⟨fits.increasing.of_cons, fun other member => fits.shared other (by simp [member])⟩
            have beyond : ∀ other ∈ slots, first + 1 < other := by
              intro other member
              have order := later other member
              omega
            obtain ⟨runs, rfl, aliases, gaps⟩ := ih (others.tail beyond)
            obtain ⟨_, _, same⟩ := bounds
            have second : first + 1 - first = 1 := by omega
            rw [shared, second] at same
            cases runs with
            | nil => simp at same
            | cons run runs =>
                have equal : run.piece = piece := by
                  simpa [pieces, List.replicate_succ] using same
                refine ⟨⟨run.piece, run.copies + 1, run.gap⟩ :: runs, ?_, ?_, ?_⟩
                · simp [pieces, List.replicate_succ, equal]
                · rw [aliasesFrom] at aliases ⊢
                  rw [List.range'_succ, List.cons_append, shared, ← aliases]
                  congr 4
                  simp only []
                  omega
                · simpa using gaps
          · have beyond : ∀ other ∈ slot :: slots, first + 1 < other := by
              intro other member
              cases List.mem_cons.mp member with
              | inl same => omega
              | inr behind =>
                  have order := later other behind
                  omega
            obtain ⟨runs, rfl, aliases, gaps⟩ := ih (fits.tail beyond)
            refine ⟨⟨piece, 0, gapOf piece⟩ :: runs, rfl, ?_, ?_⟩
            · rw [aliasesFrom]
              exact aliases
            · simpa using gaps

end Run

end FighterData.EntryArray
