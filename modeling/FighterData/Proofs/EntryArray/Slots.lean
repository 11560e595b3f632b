import FighterData.Proofs.EntryArray.Plan

/-! Reading one slot of an array. The first slot of a run checks what stands behind its entry, the
other slots read the same entry again. Since a gap ends where a later slot starts, the gaps are
checked to their full length. -/
namespace FighterData

theorem PointerTable.resolveSpan_eq {base : Int} {offsets front rest : List Int}
    {offset padding : Int} (split : offsets = front ++ offset :: rest) (stop : Int) :
    resolveSpan ⟨base, offsets, padding⟩ front.length stop =
      if (rest.find? (· ≠ offset)).getD stop < offset then
        .error (.mismatch
          (.slotOrder front.length offset ((rest.find? (· ≠ offset)).getD stop)) none)
      else .ok ⟨base + offset, (rest.find? (· ≠ offset)).getD stop - offset,
        (rest.find? (· ≠ offset)).isNone⟩ := by
  have found : offsets[front.length]? = some offset := by
    rw [split, List.getElem?_append_right (Nat.le_refl _)]
    simp
  have behind : offsets.drop (front.length + 1) = rest := by
    rw [split]
    simp
  simp only [resolveSpan, found, behind]

namespace EntryArray

variable {α : Type} {buffer : Buffer} {entry : Reader α} {what gap : String} {length : Int}
  {base padding place start middle stop : Nat} {offsets front rest : List Int} {offset : Int} {a : α}

/-- The reader of the slots of a table. -/
abbrev slotReader (base padding : Nat) (offsets : List Int) (length : Int) (entry : Reader α)
    (what gap : String) : Nat → Reader α :=
  readSlot ⟨base, offsets, padding⟩ (PointerTable.aliases ⟨base, offsets, padding⟩) length entry
    what gap

/-- What stands behind an entry that ends at `middle`: zeros up to the next other offset, or the
trailer when there is none. A filling counts only if it ends inside the buffer. -/
def Closed (buffer : Buffer) (base padding middle stop : Nat) : Option Int → Prop
  | some next => ∀ target : Nat, base + next = target → target ≤ buffer.size →
      ∃ zeros, buffer.Carries middle target (Bytes.filled 0 zeros)
  | none => stop ≤ buffer.size →
      ∃ before after, buffer.Carries middle stop (Bytes.trailer padding before after)

theorem exists_of_gives_readSlot (front : List Int) (positive : 0 < padding)
    (split : offsets = front ++ offset :: rest) (ends : base + length = stop)
    (given : (slotReader base padding offsets length entry what gap front.length).Gives
      buffer place a) :
    ∃ start middle : Nat, base + offset = start ∧ entry.Reads buffer start a middle ∧
      (front.getLast? = some offset ∨
        Closed buffer base padding middle stop (rest.find? (· ≠ offset))) := by
  simp only [readSlot, Reader.gives_bind_iff, Reader.reads_lift_iff, Reader.reads_seek_iff,
    PointerTable.resolveSpan_eq split] at given
  obtain ⟨span, _, ⟨resolved, rfl⟩, _, start, ⟨sought, _⟩, value, middle, read, closing⟩ := given
  split at resolved
  next => cases resolved
  next ordered =>
    obtain rfl := Except.ok.inj resolved
    refine ⟨start, middle, sought, ?_⟩
    split at closing
    next shared =>
      obtain ⟨_, done⟩ := closing
      obtain ⟨rfl, _⟩ := Reader.reads_pure_iff.mp done
      exact ⟨read, Or.inl ((PointerTable.mem_aliases_iff split).mp shared)⟩
    next own =>
      simp only [Reader.gives_bind_iff, Reader.reads_position_iff] at closing
      obtain ⟨_, _, ⟨rfl, rfl⟩, checked⟩ := closing
      cases other : rest.find? (· ≠ offset) with
      | none =>
          simp only [other, Option.isNone_none, if_true, Reader.gives_bind_iff, Option.getD_none]
            at checked
          obtain ⟨_, _, trailer, _, done⟩ := checked
          obtain ⟨rfl, _⟩ := Reader.reads_pure_iff.mp done
          refine ⟨read, Or.inr ?_⟩
          intro inside
          have last : (base : Int) + offset + (length - offset) = stop := by omega
          exact ((Reader.reads_expectTrailer_inside_iff positive rfl last inside).mp trailer).2
      | some next =>
          simp only [other, Option.isNone_some, Bool.false_eq_true, if_false,
            Reader.gives_bind_iff, Option.getD_some] at checked
          obtain ⟨_, _, filled, _, done⟩ := checked
          obtain ⟨rfl, _⟩ := Reader.reads_pure_iff.mp done
          refine ⟨read, Or.inr ?_⟩
          intro target same inside
          have last : (base : Int) + offset + (next - offset) = target := by omega
          exact ((Reader.reads_expectFill_inside_iff rfl last inside).mp filled).2

theorem gives_readSlot (positive : 0 < padding) (split : offsets = front ++ offset :: rest)
    (ends : base + length = stop) (begins : base + offset = start) (placed : start ≤ buffer.size)
    (read : entry.Reads buffer start a middle)
    (ordered : offset ≤ (rest.find? (· ≠ offset)).getD length)
    (reached : base + (rest.find? (· ≠ offset)).getD length ≤ buffer.size)
    (closing : front.getLast? = some offset ∨
      Closed buffer base padding middle stop (rest.find? (· ≠ offset))) :
    (slotReader base padding offsets length entry what gap front.length).Gives buffer place a := by
  have resolved := @PointerTable.resolveSpan_eq base _ _ _ _ padding split length
  rw [if_neg (by omega)] at resolved
  have shared : (PointerTable.aliases ⟨base, offsets, padding⟩).contains front.length = true ↔
      front.getLast? = some offset := PointerTable.mem_aliases_iff split
  unfold slotReader readSlot
  refine (Reader.reads_lift resolved).bind_gives ?_
  refine (Reader.reads_seek begins placed).bind_gives ?_
  refine read.bind_gives ?_
  split
  next => exact Reader.gives_pure a
  next own =>
    have closed : Closed buffer base padding middle stop (rest.find? (· ≠ offset)) := by
      cases closing with
      | inl last => exact absurd (shared.mpr last) own
      | inr closed => exact closed
    refine Reader.reads_position.bind_gives ?_
    cases other : rest.find? (· ≠ offset) with
    | none =>
        simp only [other, Option.getD_none] at closed reached ⊢
        obtain ⟨before, after, carried⟩ := closed (by omega)
        have last : (base : Int) + offset + (length - offset) = stop := by omega
        simp only [Option.isNone_none, if_true]
        exact (Reader.reads_expectTrailer positive rfl last carried).bind_gives (Reader.gives_pure a)
    | some next =>
        simp only [other, Option.getD_some] at closed ordered reached ⊢
        obtain ⟨target, same⟩ := Int.eq_ofNat_of_zero_le (show 0 ≤ base + next by omega)
        obtain ⟨zeros, carried⟩ := closed target same (by omega)
        have last : (base : Int) + offset + (next - offset) = target := by omega
        simp only [Option.isNone_some, Bool.false_eq_true, if_false]
        exact (Reader.reads_expectFill rfl last carried).bind_gives (Reader.gives_pure a)

end EntryArray

end FighterData
