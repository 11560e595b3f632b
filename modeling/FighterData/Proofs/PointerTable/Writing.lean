import FighterData.Proofs.Alignment
import FighterData.Proofs.PointerTable.Blocks

/-! Writing a table. The offsets are laid out before any of them is looked at, so that writing is
refused only for an alias that shares nothing and for an offset that no word holds. -/
namespace FighterData.PointerTable

/-- The filling behind `count` offsets that are written. -/
def leastPadding (count : Nat) : Nat :=
  16 - 4 * count % 16

/-- Where the first entry is written behind `count` offsets. -/
def startOf (count : Nat) : Nat :=
  4 * count + leastPadding count

/-- The offsets of the entries, and the entries that are stored. -/
def layOut (entries : List Bytes) (aliases : List Int) : List Int × List Bytes :=
  place aliases 0 (startOf entries.length) (startOf entries.length) entries

theorem leastPadding_bounds (count : Nat) :
    4 ≤ leastPadding count ∧ leastPadding count ≤ 16 := by
  unfold leastPadding
  omega

theorem startOf_dvd (count : Nat) : 16 ∣ startOf count := by
  unfold startOf leastPadding
  omega

theorem isLeast_padding_iff {count padding : Nat} :
    IsLeast {total | 16 ∣ total ∧ 4 * count < total} (4 * count + padding) ↔
      padding = leastPadding count :=
  Alignment.isLeast_excess_iff (by decide)

/-- The filling behind `count` offsets in front of a multiple of `step`. -/
def fillOf (step count : Nat) : Nat :=
  step - 4 * count % step

/-- Like `layOut`, for a table that is aligned to `step`. -/
def layOutAt (step : Nat) (entries : List Bytes) (aliases : List Int) : List Int × List Bytes :=
  place aliases 0 (4 * entries.length + fillOf step entries.length : Nat)
    (4 * entries.length + fillOf step entries.length : Nat) entries

theorem excess_fillOf {step : Nat} (positive : 0 < step) (count : Nat) :
    Alignment.excess (4 * (count : Int)) step = .ok (fillOf step count : Int) := by
  have bound := Nat.mod_lt (4 * count) positive
  have residue : (4 * (count : Int)).fmod step = (4 * count % step : Nat) := by
    rw [Int.fmod_eq_emod_of_nonneg _ (by omega), Int.natCast_emod]
    rfl
  have nonzero : ¬ (step : Int) = 0 := by omega
  simp only [Alignment.excess, fillOf, if_neg nonzero, residue]
  congr 1
  omega

theorem mapM_words_eq_ok_iff {order : ByteOrder} {offsets : List Int} {words : List Bytes} :
    offsets.mapM (encodeField order .u32) = .ok words ↔
      (∀ offset ∈ offsets, Width.u32.holds offset = true) ∧
        words = offsets.map fun offset => order.arrange (Width.u32.encode offset) :=
  mapM_eq_ok_iff fun _ _ _ => encodeField_eq_ok_iff

/-- What a written table and the data behind it are, if memory holds the filling. -/
theorem write_aligned_eq_ok_iff {step : Nat} {entries : List Bytes} {order : ByteOrder}
    {trailer : Bool} {aliases : List Int} {result : Bytes × Bytes} (positive : 0 < step)
    (held : (fillOf step entries.length : Int) < Fill.memoryLimit) :
    write entries step order trailer aliases = .ok result ↔
      checkAliases entries aliases = .ok () ∧
      (∀ offset ∈ (layOutAt step entries aliases).1, Width.u32.holds offset = true) ∧
      result = (spell order (layOutAt step entries aliases).1 (fillOf step entries.length),
        (layOutAt step entries aliases).2.flatten ++
          if trailer then Bytes.filled 0xFF (fillOf step entries.length) else []) := by
  have fill : Fill.run 0xFF (fillOf step entries.length : Int) =
      .ok (Bytes.filled 0xFF (fillOf step entries.length)) := by
    have done := Fill.run_eq_ok (show -Fill.wordLimit ≤ (fillOf step entries.length : Int) by
      unfold Fill.wordLimit; omega) held 0xFF
    simpa using done
  have laid : place aliases 0 (4 * (entries.length : Int) + fillOf step entries.length)
      (4 * (entries.length : Int) + fillOf step entries.length) entries =
        layOutAt step entries aliases := by
    simp [layOutAt]
  have spelled (offsets : List Int) (words : List Bytes) :
      words = offsets.map (fun offset => order.arrange (Width.u32.encode offset)) →
        words.flatten = wordBytes order offsets := by
    intro same
    rw [same]
    rfl
  simp only [write, bind_eq_ok_iff, excess_fillOf positive, mapM_words_eq_ok_iff, pure, Except.pure,
    Except.ok.injEq]
  constructor
  · intro found
    obtain ⟨_, checked, _, rfl, words, ⟨fits, same⟩, filling, filled, rfl⟩ := found
    rw [fill] at filled
    obtain rfl := Except.ok.inj filled
    rw [laid] at fits same ⊢
    rw [spelled _ _ same]
    exact ⟨checked, fits, rfl⟩
  · intro found
    obtain ⟨checked, fits, rfl⟩ := found
    refine ⟨(), checked, _, rfl, _, ⟨?_, rfl⟩, _, fill, ?_⟩
    · rw [laid]
      exact fits
    · rw [laid]
      rfl

theorem write_eq_ok_iff {entries : List Bytes} {order : ByteOrder} {trailer : Bool}
    {aliases : List Int} {result : Bytes × Bytes} :
    write entries defaultAlignment order trailer aliases = .ok result ↔
      checkAliases entries aliases = .ok () ∧
      (∀ offset ∈ (layOut entries aliases).1, Width.u32.holds offset = true) ∧
      result = (spell order (layOut entries aliases).1 (leastPadding entries.length),
        (layOut entries aliases).2.flatten ++
          if trailer then Bytes.filled 0xFF (leastPadding entries.length) else []) := by
  have bounds := leastPadding_bounds entries.length
  have held : (leastPadding entries.length : Int) < Fill.memoryLimit := by
    unfold Fill.memoryLimit
    omega
  exact write_aligned_eq_ok_iff (by decide : 0 < 16) held

theorem checkAlias_eq_ok_iff {entries : List Bytes} {slot : Int} :
    checkAlias entries slot = .ok () ↔ 1 ≤ slot ∧ slot < entries.length ∧
      entries[slot.toNat]? = entries[slot.toNat - 1]? := by
  unfold checkAlias
  by_cases inside : 0 < slot ∧ slot < entries.length
  · rw [if_pos inside]
    by_cases same : entries[slot.toNat]? = entries[slot.toNat - 1]?
    · rw [if_pos same]
      exact ⟨fun _ => ⟨inside.1, inside.2, same⟩, fun _ => rfl⟩
    · rw [if_neg same]
      constructor
      · intro refused
        cases refused
      · intro found
        exact absurd found.2.2 same
  · rw [if_neg inside]
    constructor
    · intro refused
      cases refused
    · intro found
      exact absurd ⟨found.1, found.2.1⟩ inside

theorem checkAliases_eq_ok_iff {entries : List Bytes} {aliases : List Int} :
    checkAliases entries aliases = .ok () ↔ ∀ slot ∈ aliases, 1 ≤ slot ∧ slot < entries.length ∧
      entries[slot.toNat]? = entries[slot.toNat - 1]? := by
  simp only [checkAliases, forM_eq_ok_iff, List.mem_mergeSort, checkAlias_eq_ok_iff]

section Placing

variable {aliases : List Int} {slot : Nat} {previous running : Int}

/-- Without aliases every entry is stored, and the offsets are running sums. -/
theorem place_nil (running : Nat) (entries : List Bytes) :
    place [] slot previous running entries = (Entry.pointersFrom running entries, entries) := by
  induction entries generalizing slot previous running with
  | nil => rfl
  | cons entry rest ih =>
      have next : (running : Int) + entry.length = (running + entry.length : Nat) := rfl
      simp only [place, List.contains_nil, Bool.false_eq_true, if_false, next, ih,
        Entry.pointersFrom]

theorem layOut_nil (entries : List Bytes) :
    layOut entries [] = (Entry.pointersFrom (startOf entries.length) entries, entries) :=
  place_nil _ _

theorem write_nil_eq_ok_iff {entries : List Bytes} {order : ByteOrder} {trailer : Bool}
    {result : Bytes × Bytes} :
    write entries defaultAlignment order trailer [] = .ok result ↔
      (∀ offset ∈ (layOut entries []).1, Width.u32.holds offset = true) ∧
      result = (spell order (layOut entries []).1 (leastPadding entries.length),
        entries.flatten ++
          if trailer then Bytes.filled 0xFF (leastPadding entries.length) else []) := by
  have unshared : checkAliases entries [] = .ok () := by
    rw [checkAliases_eq_ok_iff]
    simp
  have stored : (layOut entries []).2 = entries := by rw [layOut_nil]
  rw [write_eq_ok_iff, stored]
  simp only [unshared, true_and]

/-- Slots that are all aliases repeat the offset before them. -/
theorem place_replicate {copies : Nat} (entry : Bytes) (rest : List Bytes)
    (shared : ∀ index < copies, aliases.contains ((slot + index : Nat) : Int) = true) :
    place aliases slot previous running (List.replicate copies entry ++ rest) =
      (List.replicate copies previous ++ (place aliases (slot + copies) previous running rest).1,
        (place aliases (slot + copies) previous running rest).2) := by
  induction copies generalizing slot with
  | zero => rfl
  | succ copies ih =>
      have head := shared 0 (by omega)
      rw [Nat.add_zero] at head
      have tail : ∀ index < copies, aliases.contains ((slot + 1 + index : Nat) : Int) = true := by
        intro index below
        have next := shared (index + 1) (by omega)
        have place : slot + (index + 1) = slot + 1 + index := by omega
        rwa [place] at next
      have place : slot + 1 + copies = slot + (copies + 1) := by omega
      rw [List.replicate_succ, List.cons_append, PointerTable.place, if_pos head, ih tail, place]
      rfl

end Placing

end FighterData.PointerTable
