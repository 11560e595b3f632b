import FighterData.Proofs.EntryArray.Slots
import FighterData.Proofs.PointerTable.Placing

/-! Tables that are written and read again, with any alignment of whole words, in either byte order, and
with anything before and behind. Writing refuses bad aliases, and else only numbers that are too large.
What is written is read with its offsets, and every slot leads back to its entry. -/
namespace FighterData

/-- An alias without a slot before it, or with another entry than that slot. -/
def Fault.IsAlias : Fault → Prop
  | .aliasFirst _ => True
  | .aliasDiffers _ => True
  | _ => False

/-- A number that no word, or no memory, holds. -/
def Fault.IsRange : Fault → Prop
  | .fieldRange => True
  | .lengthRange => True
  | .memory => True
  | _ => False

theorem Fault.IsRange.not_isAlias {fault : Fault} (large : fault.IsRange) : ¬ fault.IsAlias := by
  cases fault <;> simp [IsRange, IsAlias] at large ⊢

namespace PointerTable

/-- The slot has one before it, with the same entry. -/
def Shares (entries : List Bytes) (slot : Int) : Prop :=
  1 ≤ slot ∧ slot < entries.length ∧ entries[slot.toNat]? = entries[slot.toNat - 1]?
deriving Decidable

variable {entries : List Bytes} {step : Nat} {order : ByteOrder} {trailer : Bool}
  {aliases : List Int} {fault : Fault}

section Refusing

theorem isAlias_of_checkAliases (refused : checkAliases entries aliases = .error fault) :
    fault.IsAlias := by
  obtain ⟨slot, _, refused⟩ := exists_of_forM_error refused
  unfold checkAlias at refused
  split at refused
  · split at refused
    · cases refused
    · cases refused
      trivial
  · cases refused
    trivial

theorem isRange_of_run {byte : UInt8} {length : Int}
    (refused : Fill.run byte length = .error fault) : fault.IsRange := by
  obtain refused | ⟨_, _, none⟩ := bind_eq_error_iff.mp refused
  · unfold Fill.checkLength at refused
    split at refused
    · cases refused
      trivial
    · split at refused
      · cases refused
        trivial
      · cases refused
  · cases none

/-- Once the aliases have passed, only large numbers are refused. -/
theorem isRange_of_write (positive : 0 < step)
    (refused : write entries step order trailer aliases = .error fault) :
    checkAliases entries aliases = .error fault ∨ fault.IsRange := by
  obtain checked | ⟨_, _, filling⟩ := bind_eq_error_iff.mp refused
  · exact Or.inl checked
  right
  rw [excess_fillOf positive] at filling
  obtain none | ⟨padding, _, encoding⟩ := bind_eq_error_iff.mp filling
  · cases none
  obtain word | ⟨words, _, ending⟩ := bind_eq_error_iff.mp encoding
  · obtain ⟨offset, _, large⟩ := exists_of_mapM_error word
    unfold encodeField at large
    split at large
    · cases large
    · cases large
      trivial
  obtain fill | ⟨_, _, none⟩ := bind_eq_error_iff.mp ending
  · exact isRange_of_run fill
  · cases none

theorem exists_isAlias_iff (positive : 0 < step) :
    (∃ fault, write entries step order trailer aliases = .error fault ∧ fault.IsAlias) ↔
      ∃ slot ∈ aliases, ¬ Shares entries slot := by
  have checked : checkAliases entries aliases = .ok () ↔ ∀ slot ∈ aliases, Shares entries slot :=
    checkAliases_eq_ok_iff
  constructor
  · rintro ⟨fault, refused, named⟩
    obtain refused | large := isRange_of_write positive refused
    · refine Classical.byContradiction fun none => ?_
      have passed := checked.mpr fun slot member =>
        Classical.byContradiction fun bad => none ⟨slot, member, bad⟩
      cases passed.symm.trans refused
    · exact absurd named large.not_isAlias
  · rintro ⟨slot, member, bad⟩
    cases result : checkAliases entries aliases with
    | ok _ => exact absurd (checked.mp result slot member) bad
    | error fault =>
        refine ⟨fault, ?_, isAlias_of_checkAliases result⟩
        rw [write, result]
        rfl

end Refusing

section Sizes

theorem fillOf_bounds (positive : 0 < step) (whole : 4 ∣ step) (count : Nat) :
    4 ≤ fillOf step count ∧ fillOf step count ≤ step := by
  obtain ⟨words, rfl⟩ := whole
  have rest := Nat.mod_lt count (by omega : 0 < words)
  rw [fillOf, Nat.mul_mod_mul_left]
  omega

/-- Where the first entry is written. -/
def tableSize (step : Nat) (entries : List Bytes) : Nat :=
  4 * entries.length + fillOf step entries.length

/-- The length of the table with all its data. -/
def writtenSize (step : Nat) (entries : List Bytes) (trailer : Bool) (aliases : List Int) : Nat :=
  tableSize step entries + (ownFrom aliases 0 entries).flatten.length +
    if trailer then fillOf step entries.length else 0

theorem layOutAt_eq (step : Nat) (entries : List Bytes) (aliases : List Int) :
    layOutAt step entries aliases = ((place aliases 0 (tableSize step entries)
      (tableSize step entries) entries).1, ownFrom aliases 0 entries) := by
  rw [← stored_place (tableSize step entries) (tableSize step entries)]
  rfl

theorem length_offsets_layOutAt : (layOutAt step entries aliases).1.length = entries.length :=
  length_place _ _

theorem isOffset_of_mem_layOutAt
    (short : (writtenSize step entries trailer aliases : Int) < sentinel) :
    ∀ offset ∈ (layOutAt step entries aliases).1, IsOffset offset := by
  intro offset member
  rw [layOutAt_eq] at member
  have bounds := offset_le_of_mem_place (Int.le_refl _) member
  unfold writtenSize at short
  exact ⟨by omega, by omega⟩

/-- The padding that a reader works out is the one that was written. -/
theorem paddingOf_layOutAt (positive : 0 < step) (whole : 4 ∣ step) (base : Int) :
    paddingOf base (layOutAt step entries aliases).1 step =
      .ok (fillOf step entries.length : Int) := by
  have bounds := fillOf_bounds positive whole entries.length
  have size := @length_offsets_layOutAt entries step aliases
  cases offsets : (layOutAt step entries aliases).1 with
  | nil =>
      rw [offsets] at size
      rw [← size]
      exact excess_fillOf positive 0
  | cons first rest =>
      have start : first = tableSize step entries := by
        rw [layOutAt_eq] at offsets
        exact head?_place (by rw [offsets]; rfl)
      rw [offsets, List.length_cons] at size
      rw [tableSize] at start
      simp only [paddingOf, List.length_cons]
      rw [if_neg (by omega)]
      congr 1
      omega

/-- Whatever is written has this length. -/
theorem length_of_write {table data : Bytes} (positive : 0 < step)
    (written : write entries step order trailer aliases = .ok (table, data)) :
    table.length + data.length = writtenSize step entries trailer aliases := by
  simp only [write, bind_eq_ok_iff, excess_fillOf positive, mapM_words_eq_ok_iff, pure, Except.pure,
    Except.ok.injEq, Prod.mk.injEq] at written
  obtain ⟨_, _, _, rfl, words, ⟨_, spelled⟩, filling, filled, rfl, rfl⟩ := written
  obtain ⟨_, _, same⟩ := bind_eq_ok_iff.mp filled
  obtain rfl := Except.ok.inj same
  have offsets : words.flatten.length = 4 * entries.length := by
    rw [spelled]
    exact (length_wordBytes order _).trans (by rw [length_place])
  rw [stored_place, List.length_append, List.length_append, offsets, Bytes.length_filled,
    Int.toNat_natCast, writtenSize, tableSize]
  cases trailer with
  | true => simp [Nat.add_assoc]
  | false => simp

/-- Aliases that share, and a size that words can tell, are enough to write. -/
theorem write_of_shares (positive : 0 < step) (shares : ∀ slot ∈ aliases, Shares entries slot)
    (short : (writtenSize step entries trailer aliases : Int) < sentinel) :
    write entries step order trailer aliases =
      .ok (spell order (layOutAt step entries aliases).1 (fillOf step entries.length),
        (ownFrom aliases 0 entries).flatten ++
          if trailer then Bytes.filled 0xFF (fillOf step entries.length) else []) := by
  have held : (fillOf step entries.length : Int) < Fill.memoryLimit := by
    unfold writtenSize tableSize sentinel at short
    unfold Fill.memoryLimit
    omega
  have bounded := isOffset_of_mem_layOutAt short
  have stored : (layOutAt step entries aliases).2 = ownFrom aliases 0 entries := by
    rw [layOutAt_eq]
  rw [← stored]
  exact (write_aligned_eq_ok_iff positive held).mpr ⟨checkAliases_eq_ok_iff.mpr shares,
    fun offset member => (bounded offset member).holds, rfl⟩

end Sizes

section Selecting

/-- The bytes that a position and a length select are those of the entry. -/
def Selects (buffer : Buffer) (position length : Int) (entry : Bytes) : Prop :=
  ∃ start : Nat, position = start ∧ length = entry.length ∧
    buffer.Carries start (start + entry.length) entry

variable {buffer : Buffer} {base stop finish padding slot : Nat} {entry : Bytes}

/-- The aliases of a written table are the ones that were asked for, in order and each once. -/
theorem aliases_layOutAt {base padding : Int} (shares : ∀ slot ∈ aliases, Shares entries slot)
    (solid : ∀ own ∈ ownFrom aliases 0 entries, own ≠ []) :
    PointerTable.aliases ⟨base, (layOutAt step entries aliases).1, padding⟩ =
      (List.range entries.length).filter fun (slot : Nat) => aliases.contains (slot : Int) := by
  cases entries with
  | nil => rfl
  | cons first rest =>
      have own : ¬ aliases.contains ((0 : Nat) : Int) = true := by
        intro shared
        have lower := (shares 0 (List.contains_iff_mem.mp shared)).1
        omega
      rw [ownFrom_cons_own first rest own, List.forall_mem_cons] at solid
      have room := List.length_pos_iff.mpr solid.1
      rw [PointerTable.aliases, layOutAt_eq, place_cons_own first rest own,
        aliasesFrom_place (by omega) solid.2, List.range_eq_range', List.length_cons,
        List.range'_succ, List.filter_cons, if_neg own]

theorem mem_aliases_layOutAt {base padding : Int} (shares : ∀ slot ∈ aliases, Shares entries slot)
    (solid : ∀ own ∈ ownFrom aliases 0 entries, own ≠ []) :
    slot ∈ PointerTable.aliases ⟨base, (layOutAt step entries aliases).1, padding⟩ ↔
      (slot : Int) ∈ aliases := by
  rw [aliases_layOutAt shares solid, List.mem_filter, List.contains_iff_mem, List.mem_range]
  refine ⟨fun found => found.2, fun member => ⟨?_, member⟩⟩
  have upper := (shares slot member).2.1
  omega

/-- Spans lead back to the entries, empty ones aside. -/
theorem resolveSpan_layOutAt {padding : Int} (shares : ∀ slot ∈ aliases, Shares entries slot)
    (solid : ∀ own ∈ ownFrom aliases 0 entries, own ≠ [])
    (carried : buffer.Carries (base + tableSize step entries) stop
      (ownFrom aliases 0 entries).flatten)
    (found : entries[slot]? = some entry) :
    ∃ span, resolveSpan ⟨base, (layOutAt step entries aliases).1, padding⟩ slot
        (tableSize step entries + (ownFrom aliases 0 entries).flatten.length : Nat) = .ok span ∧
      Selects buffer span.position span.length entry ∧
      (span.isLast = true ↔ ∀ later : Nat, slot < later → later < entries.length →
        (later : Int) ∈ aliases) := by
  have inside : base + tableSize step entries ≤ buffer.size := by
    have start := carried.start_le
    have whole := carried.stop_le
    omega
  have first : ¬ aliases.contains ((0 : Nat) : Int) = true := by
    intro shared
    have lower := (shares 0 (List.contains_iff_mem.mp shared)).1
    omega
  have before : ∀ index < entries.length, aliases.contains ((0 + index : Nat) : Int) = true →
      entries[index]? = ([] :: entries)[index]? := by
    intro index _ there
    rw [Nat.zero_add] at there
    obtain ⟨lower, _, same⟩ := shares index (List.contains_iff_mem.mp there)
    obtain ⟨back, rfl⟩ : ∃ back, index = back + 1 := ⟨index - 1, by omega⟩
    simpa using same
  have ends : base + (tableSize step entries + (ownFrom aliases 0 entries).flatten.length) =
      stop := by
    have size := carried.stop_eq
    omega
  obtain ⟨front, offset, back, split, rfl, spanned, last⟩ :=
    exists_spanned (Buffer.carries_nil inside) carried ends (fun zero => absurd zero first) solid
      before found
  have offsets : (layOutAt step entries aliases).1 = front ++ (offset : Int) :: back := by
    rw [layOutAt_eq]
    exact split
  have resolved := @resolveSpan_eq base _ _ _ _ padding offsets
    (tableSize step entries + (ownFrom aliases 0 entries).flatten.length : Nat)
  rw [spanned.next, if_neg (by omega)] at resolved
  have length : ((offset + entry.length : Nat) : Int) - offset = entry.length := by omega
  refine ⟨_, resolved, ⟨base + offset, rfl, length, spanned.carried⟩, last.trans ?_⟩
  simp only [Nat.zero_add, List.contains_iff_mem]

/-- Without aliases every slot reaches to the next one, so its entry may be empty. -/
theorem resolve_layOutAt {padding : Int}
    (carried : buffer.Carries (base + tableSize step entries) stop entries.flatten)
    (found : entries[slot]? = some entry) :
    ∃ position length, resolve ⟨base, (layOutAt step entries []).1, padding⟩ slot
        (tableSize step entries + entries.flatten.length : Nat) = .ok (position, length) ∧
      Selects buffer position length entry := by
  obtain ⟨front, back, rfl, rfl⟩ : ∃ front back, entries = front ++ entry :: back ∧
      front.length = slot := by
    obtain ⟨inside, rfl⟩ := List.getElem?_eq_some_iff.mp found
    refine ⟨entries.take slot, entries.drop (slot + 1), ?_, ?_⟩
    · rw [← List.drop_eq_getElem_cons inside, List.take_append_drop]
    · rw [List.length_take, Nat.min_eq_left (by omega)]
  let start := tableSize step (front ++ entry :: back)
  have offsets : (layOutAt step (front ++ entry :: back) []).1 =
      Entry.pointersFrom start front ++ ((start + front.flatten.length : Nat) : Int) ::
        Entry.pointersFrom (start + front.flatten.length + entry.length) back := by
    rw [layOutAt, place_nil, Entry.pointersFrom_append]
    rfl
  have next : (Entry.pointersFrom (start + front.flatten.length + entry.length) back).headD
      (start + (front ++ entry :: back).flatten.length : Nat) =
        (start + front.flatten.length + entry.length : Nat) := by
    cases back with
    | nil => simp [Entry.pointersFrom, Nat.add_assoc]
    | cons other rest => rfl
  have resolved := @resolve_eq base _ _ _ _ padding offsets
    (start + (front ++ entry :: back).flatten.length : Nat)
  rw [Entry.length_pointersFrom, next, if_neg (by omega)] at resolved
  rw [List.flatten_append, List.flatten_cons] at carried
  obtain ⟨_, behind⟩ := carried.split
  obtain ⟨own, _⟩ := behind.split
  exact ⟨_, _, resolved, base + start + front.flatten.length, by omega, by omega, own⟩

end Selecting

section Reading

/-- What is read of a written table: its place, its size and its aliases, and from each slot the entry
there. Spans tell entries of aliases as long as no stored one is empty; without aliases each slot
reaches to the next one. -/
structure Rereads (buffer : Buffer) (base step : Nat) (order : ByteOrder) (entries : List Bytes)
    (aliases : List Int) (table : Bytes) (found : PointerTable) : Prop where
  reads : ∀ place, (read base order step).Reads buffer place found (base + 4 * entries.length + 4)
  place : found.base = base
  slots : found.offsets.length = entries.length
  size : found.size = table.length
  shared : (∀ own ∈ ownFrom aliases 0 entries, own ≠ []) →
    found.aliases.Pairwise (· < ·) ∧ ∀ slot : Nat, slot ∈ found.aliases ↔ (slot : Int) ∈ aliases
  spans : (∀ own ∈ ownFrom aliases 0 entries, own ≠ []) →
    ∀ (slot : Nat) (entry : Bytes), entries[slot]? = some entry →
      ∃ span, found.resolveSpan slot
          (table.length + (ownFrom aliases 0 entries).flatten.length : Nat) = .ok span ∧
        Selects buffer span.position span.length entry ∧
        (span.isLast = true ↔ ∀ later : Nat, slot < later → later < entries.length →
          (later : Int) ∈ aliases)
  blocks : aliases = [] → ∀ (slot : Nat) (entry : Bytes), entries[slot]? = some entry →
    ∃ position length, found.resolve slot
        (table.length + (ownFrom aliases 0 entries).flatten.length : Nat) =
          .ok (position, length) ∧
      Selects buffer position length entry

theorem rereads_of_carries {buffer : Buffer} {base middle stop : Nat} (positive : 0 < step)
    (whole : 4 ∣ step) (shares : ∀ slot ∈ aliases, Shares entries slot)
    (short : (writtenSize step entries trailer aliases : Int) < sentinel)
    (carried : buffer.Carries base middle
      (spell order (layOutAt step entries aliases).1 (fillOf step entries.length)))
    (stored : buffer.Carries middle stop (ownFrom aliases 0 entries).flatten) :
    Rereads buffer base step order entries aliases
      (spell order (layOutAt step entries aliases).1 (fillOf step entries.length))
      ⟨base, (layOutAt step entries aliases).1, fillOf step entries.length⟩ := by
  have bounds := fillOf_bounds positive whole entries.length
  have size : (spell order (layOutAt step entries aliases).1 (fillOf step entries.length)).length =
      tableSize step entries := by
    rw [length_spell, length_offsets_layOutAt, tableSize]
  rw [carried.stop_eq, size] at stored
  refine ⟨?_, rfl, length_offsets_layOutAt, ?_, ?_, ?_, ?_⟩
  · intro place
    have read : (read base order step).Reads buffer place
        ⟨base, (layOutAt step entries aliases).1, fillOf step entries.length⟩
        (base + 4 * (layOutAt step entries aliases).1.length + 4) :=
      reads_of_padded (isOffset_of_mem_layOutAt short) bounds.1
        (paddingOf_layOutAt positive whole base) carried
    rwa [length_offsets_layOutAt] at read
  · rw [PointerTable.size, length_offsets_layOutAt, size, tableSize]
    simp
  · intro solid
    refine ⟨?_, fun slot => mem_aliases_layOutAt shares solid⟩
    rw [aliases_layOutAt shares solid]
    exact List.pairwise_lt_range.filter _
  · intro solid slot entry found
    rw [size]
    exact resolveSpan_layOutAt shares solid stored found
  · rintro rfl slot entry found
    rw [ownFrom_nil] at stored ⊢
    rw [size]
    exact resolve_layOutAt stored found

/-- Writing a table names an alias as its fault exactly if one is bad, and refuses else only large
numbers. The size of what is written follows from the entries. Good aliases and a size below the closing word are enough to write, and what is written is
read again from anywhere. -/
theorem write_refuses_or_rereads (entries : List Bytes) (order : ByteOrder) (trailer : Bool)
    (aliases : List Int) (positive : 0 < step) (whole : 4 ∣ step) :
    ((∃ fault, write entries step order trailer aliases = .error fault ∧ fault.IsAlias) ↔
      ∃ slot ∈ aliases, ¬ Shares entries slot) ∧
    (∀ fault, write entries step order trailer aliases = .error fault →
      fault.IsAlias ∨ fault.IsRange) ∧
    (∀ table data, write entries step order trailer aliases = .ok (table, data) →
      table.length + data.length = writtenSize step entries trailer aliases) ∧
    ((∀ slot ∈ aliases, Shares entries slot) →
      (writtenSize step entries trailer aliases : Int) < sentinel →
        ∃ table data, write entries step order trailer aliases = .ok (table, data) ∧
          ∀ front back : Bytes, ∃ found, Rereads (front ++ table ++ data ++ back).toArray
            front.length step order entries aliases table found) := by
  refine ⟨exists_isAlias_iff positive, ?_, fun _ _ => length_of_write positive, ?_⟩
  · intro fault refused
    obtain checked | large := isRange_of_write positive refused
    · exact Or.inl (isAlias_of_checkAliases checked)
    · exact Or.inr large
  · intro shares short
    refine ⟨_, _, write_of_shares positive shares short, fun front back =>
      ⟨⟨front.length, (layOutAt step entries aliases).1, fillOf step entries.length⟩, ?_⟩⟩
    have carried := Buffer.carries_middle front
      (spell order (layOutAt step entries aliases).1 (fillOf step entries.length) ++
        ((ownFrom aliases 0 entries).flatten ++
          if trailer then Bytes.filled 0xFF (fillOf step entries.length) else [])) back
    rw [← List.append_assoc front] at carried
    obtain ⟨table, data⟩ := carried.split
    exact rereads_of_carries positive whole shares short table data.split.1

/-- Four slots in two runs, in big-endian order and with a table of whole double words. -/
def twoRuns : List Bytes :=
  [[1, 2], [1, 2], [3], [3]]

theorem write_refuses_or_rereads_twoRuns :
    0 < 8 ∧ 4 ∣ 8 ∧ (∀ slot ∈ [3, 1, 1], Shares twoRuns slot) ∧
      (∃ table data, write twoRuns 8 .big true [3, 1, 1] = .ok (table, data) ∧
        ∀ front back : Bytes, ∃ found, Rereads (front ++ table ++ data ++ back).toArray
          front.length 8 .big twoRuns [3, 1, 1] table found) ∧
      ∃ fault, write twoRuns 8 .big true [2] = .error fault ∧ fault.IsAlias := by
  have shares : ∀ slot ∈ [3, 1, 1], Shares twoRuns slot := by decide
  have good := write_refuses_or_rereads twoRuns .big true [3, 1, 1] (by decide : 0 < 8) (by decide)
  have bad := write_refuses_or_rereads twoRuns .big true [2] (by decide : 0 < 8) (by decide)
  obtain ⟨table, data, written, rereads⟩ := good.2.2.2 shares (by decide)
  exact ⟨by decide, by decide, shares, ⟨table, data, written, rereads⟩,
    bad.1.mpr ⟨2, by decide, by decide⟩⟩

end Reading

end PointerTable

end FighterData
