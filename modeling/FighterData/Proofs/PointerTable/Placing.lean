import FighterData.Proofs.EntryArray.Plan
import FighterData.Proofs.PointerTable.Writing

/-! Where writing a table places the entries. A slot of its own gets the next free offset, and an alias
gets the offset before it. As long as no stored entry is empty, offsets agree only along aliases, so
the aliases can be told from the offsets, and a span ends where the next slot of its own starts. -/
namespace FighterData.PointerTable

variable {aliases : List Int} {slot step : Nat} {previous running : Int} {entries : List Bytes}

/-- The entries of the slots that are no aliases, when the first one is at `slot`. -/
def ownFrom (aliases : List Int) (slot : Nat) (entries : List Bytes) : List Bytes :=
  ((entries.zipIdx slot).filter fun entry => !aliases.contains (entry.2 : Int)).map (·.1)

section Steps

variable (entry : Bytes) (rest : List Bytes)

theorem ownFrom_cons_alias (shared : aliases.contains (slot : Int) = true) :
    ownFrom aliases slot (entry :: rest) = ownFrom aliases (slot + 1) rest := by
  rw [ownFrom, List.zipIdx_cons, List.filter_cons_of_neg (by simpa using shared)]
  rfl

theorem ownFrom_cons_own (own : ¬ aliases.contains (slot : Int) = true) :
    ownFrom aliases slot (entry :: rest) = entry :: ownFrom aliases (slot + 1) rest := by
  rw [ownFrom, List.zipIdx_cons, List.filter_cons_of_pos (by simpa using own)]
  rfl

theorem place_cons_alias (shared : aliases.contains (slot : Int) = true) :
    place aliases slot previous running (entry :: rest) =
      (previous :: (place aliases (slot + 1) previous running rest).1,
        (place aliases (slot + 1) previous running rest).2) := by
  rw [place, if_pos shared]

theorem place_cons_own (own : ¬ aliases.contains (slot : Int) = true) :
    place aliases slot previous running (entry :: rest) =
      (running :: (place aliases (slot + 1) running (running + entry.length) rest).1,
        entry :: (place aliases (slot + 1) running (running + entry.length) rest).2) := by
  rw [place, if_neg own]

end Steps

theorem ownFrom_eq_nil_iff : ownFrom aliases slot entries = [] ↔
    ∀ later, slot ≤ later → later < slot + entries.length →
      aliases.contains (later : Int) = true := by
  induction entries generalizing slot with
  | nil =>
      refine ⟨fun _ later lower upper => ?_, fun _ => rfl⟩
      rw [List.length_nil] at upper
      omega
  | cons entry rest ih =>
      rw [List.length_cons]
      by_cases shared : aliases.contains (slot : Int) = true
      · rw [ownFrom_cons_alias entry rest shared, ih]
        constructor
        · intro every later lower upper
          by_cases here : later = slot
          · rwa [here]
          · exact every later (by omega) (by omega)
        · intro every later lower upper
          exact every later (by omega) (by omega)
      · rw [ownFrom_cons_own entry rest shared]
        refine ⟨fun none => absurd none (by simp), fun every => ?_⟩
        exact absurd (every slot (by omega) (by omega)) shared

theorem ownFrom_nil (slot : Nat) (entries : List Bytes) : ownFrom [] slot entries = entries := by
  induction entries generalizing slot with
  | nil => rfl
  | cons entry rest ih => rw [ownFrom_cons_own entry rest (by simp), ih]

theorem stored_place (previous running : Int) :
    (place aliases slot previous running entries).2 = ownFrom aliases slot entries := by
  induction entries generalizing slot previous running with
  | nil => rfl
  | cons entry rest ih =>
      by_cases shared : aliases.contains (slot : Int) = true
      · rw [place_cons_alias entry rest shared, ownFrom_cons_alias entry rest shared, ih]
      · rw [place_cons_own entry rest shared, ownFrom_cons_own entry rest shared, ih]

theorem length_place (previous running : Int) :
    (place aliases slot previous running entries).1.length = entries.length := by
  induction entries generalizing slot previous running with
  | nil => rfl
  | cons entry rest ih =>
      by_cases shared : aliases.contains (slot : Int) = true
      · rw [place_cons_alias entry rest shared, List.length_cons, ih, List.length_cons]
      · rw [place_cons_own entry rest shared, List.length_cons, ih, List.length_cons]

/-- The offsets lie between the first entry and the end of the last one. -/
theorem offset_le_of_mem_place {offset : Int} (order : previous ≤ running)
    (member : offset ∈ (place aliases slot previous running entries).1) :
    previous ≤ offset ∧ offset ≤ running + (ownFrom aliases slot entries).flatten.length := by
  induction entries generalizing slot previous running with
  | nil => cases member
  | cons entry rest ih =>
      by_cases shared : aliases.contains (slot : Int) = true
      · rw [place_cons_alias entry rest shared] at member
        rw [ownFrom_cons_alias entry rest shared]
        obtain rfl | later := List.mem_cons.mp member
        · omega
        · exact ih order later
      · rw [place_cons_own entry rest shared] at member
        rw [ownFrom_cons_own entry rest shared, List.flatten_cons, List.length_append]
        obtain rfl | later := List.mem_cons.mp member
        · omega
        · have bounds := ih (by omega) later
          omega

theorem head?_place {offset : Int}
    (head : offset ∈ (place aliases slot running running entries).1.head?) : offset = running := by
  cases entries with
  | nil => cases head
  | cons entry rest =>
      by_cases shared : aliases.contains (slot : Int) = true
      · rw [place_cons_alias entry rest shared] at head
        exact (Option.some.inj head).symm
      · rw [place_cons_own entry rest shared] at head
        exact (Option.some.inj head).symm

section Distinct

/-- The next other offset behind a slot is the one of the next slot of its own. -/
theorem find?_place (ahead : previous < running) :
    (place aliases slot previous running entries).1.find? (· ≠ previous) =
      if ownFrom aliases slot entries = [] then none else some running := by
  induction entries generalizing slot with
  | nil => rfl
  | cons entry rest ih =>
      by_cases shared : aliases.contains (slot : Int) = true
      · rw [place_cons_alias entry rest shared, ownFrom_cons_alias entry rest shared,
          List.find?_cons_of_neg (by simp), ih]
      · have other : running ≠ previous := by omega
        rw [place_cons_own entry rest shared, ownFrom_cons_own entry rest shared,
          List.find?_cons_of_pos (by simpa using other), if_neg (by simp)]

/-- The slots that repeat an offset are the aliases. -/
theorem aliasesFrom_place (ahead : previous < running)
    (solid : ∀ entry ∈ ownFrom aliases (slot + 1) entries, entry ≠ []) :
    aliasesFrom (slot + 1) (previous :: (place aliases (slot + 1) previous running entries).1) =
      (List.range' (slot + 1) entries.length).filter fun (later : Nat) =>
        aliases.contains (later : Int) := by
  induction entries generalizing slot previous running with
  | nil => rfl
  | cons entry rest ih =>
      rw [List.length_cons, List.range'_succ]
      by_cases shared : aliases.contains ((slot + 1 : Nat) : Int) = true
      · rw [ownFrom_cons_alias entry rest shared] at solid
        rw [place_cons_alias entry rest shared, aliasesFrom, if_pos rfl, ih ahead solid,
          List.filter_cons, if_pos shared]
      · rw [ownFrom_cons_own entry rest shared, List.forall_mem_cons] at solid
        have room := List.length_pos_iff.mpr solid.1
        rw [place_cons_own entry rest shared, aliasesFrom_of_ne _ _ (by omega),
          ih (by omega) solid.2, List.filter_cons, if_neg shared]

/-- What a span says about an entry: its bytes start at the offset, and the next other offset, or the end
of the data, is right behind them. -/
structure Spanned (buffer : Buffer) (base finish : Nat) (offset : Nat) (back : List Int)
    (entry : Bytes) : Prop where
  carried : buffer.Carries (base + offset) (base + offset + entry.length) entry
  next : (back.find? (· ≠ (offset : Int))).getD finish = (offset + entry.length : Nat)

section Spans

variable {buffer : Buffer} {base finish stop previous running index : Nat} {held entry : Bytes}
  {rest : List Bytes}

/-- The place of the first slot, whose entry is stored at the free offset or, for an alias, is held by
the slot before it. -/
theorem exists_first (before : buffer.Carries (base + previous) (base + running) held)
    (carried : buffer.Carries (base + running) stop
      (ownFrom aliases slot (entry :: rest)).flatten)
    (solid : ∀ own ∈ ownFrom aliases slot (entry :: rest), own ≠ [])
    (shared : aliases.contains (slot : Int) = true → held ≠ [] ∧ entry = held) :
    ∃ offset free : Nat, (place aliases slot previous running (entry :: rest)).1 =
        (offset : Int) :: (place aliases (slot + 1) offset free rest).1 ∧
      buffer.Carries (base + offset) (base + free) entry ∧ entry ≠ [] ∧
      buffer.Carries (base + free) stop (ownFrom aliases (slot + 1) rest).flatten ∧
      ∀ own ∈ ownFrom aliases (slot + 1) rest, own ≠ [] := by
  by_cases there : aliases.contains (slot : Int) = true
  · obtain ⟨some, rfl⟩ := shared there
    rw [ownFrom_cons_alias entry rest there] at carried solid
    rw [place_cons_alias entry rest there]
    exact ⟨previous, running, rfl, before, some, carried, solid⟩
  · rw [ownFrom_cons_own entry rest there, List.flatten_cons] at carried
    rw [ownFrom_cons_own entry rest there, List.forall_mem_cons] at solid
    rw [place_cons_own entry rest there]
    obtain ⟨own, others⟩ := carried.split
    rw [Nat.add_assoc] at own others
    exact ⟨running, running + entry.length, rfl, own, solid.1, others, solid.2⟩

theorem spanned_first {offset free : Nat} (own : buffer.Carries (base + offset) (base + free) entry)
    (some : entry ≠ [])
    (carried : buffer.Carries (base + free) stop (ownFrom aliases slot rest).flatten)
    (ends : base + finish = stop) :
    Spanned buffer base finish offset (place aliases slot offset free rest).1 entry ∧
      (((place aliases slot offset free rest).1.find? (· ≠ (offset : Int))).isNone = true ↔
        ownFrom aliases slot rest = []) := by
  have room := List.length_pos_iff.mpr some
  have size := own.stop_eq
  have next := @find?_place aliases slot offset free rest (by omega)
  have sum : base + free = base + offset + entry.length := by omega
  refine ⟨⟨sum ▸ own, ?_⟩, ?_⟩
  · rw [next]
    split
    next none =>
      rw [none] at carried
      have last := carried.eq_start_of_nil
      rw [Option.getD_none]
      omega
    next =>
      rw [Option.getD_some]
      omega
  · rw [next]
    split <;> simp [*]

/-- Every slot spans its entry. What is known of the slot before is passed on: the entry there, which
an alias has too, stands right before the free offset. -/
theorem exists_spanned (before : buffer.Carries (base + previous) (base + running) held)
    (carried : buffer.Carries (base + running) stop (ownFrom aliases slot entries).flatten)
    (ends : base + finish = stop)
    (ahead : aliases.contains (slot : Int) = true → held ≠ [])
    (solid : ∀ own ∈ ownFrom aliases slot entries, own ≠ [])
    (shared : ∀ index < entries.length, aliases.contains ((slot + index : Nat) : Int) = true →
      entries[index]? = (held :: entries)[index]?)
    (found : entries[index]? = some entry) :
    ∃ (front : List Int) (offset : Nat) (back : List Int),
      (place aliases slot previous running entries).1 = front ++ (offset : Int) :: back ∧
      front.length = index ∧ Spanned buffer base finish offset back entry ∧
      ((back.find? (· ≠ (offset : Int))).isNone = true ↔
        ∀ later, slot + index < later → later < slot + entries.length →
          aliases.contains (later : Int) = true) := by
  induction entries generalizing slot index previous running held with
  | nil => cases found
  | cons first rest ih =>
      obtain ⟨offset, free, placed, own, some, others, solid⟩ :=
        exists_first before carried solid fun there =>
          ⟨ahead there, by simpa using shared 0 (by simp) there⟩
      rw [placed]
      cases index with
      | zero =>
          obtain rfl := Option.some.inj found
          obtain ⟨spanned, last⟩ := spanned_first own some others ends
          refine ⟨[], offset, _, rfl, rfl, spanned, last.trans ?_⟩
          rw [ownFrom_eq_nil_iff, List.length_cons, Nat.add_zero, Nat.add_assoc, Nat.add_comm 1]
          rfl
      | succ index =>
          have further : ∀ index < rest.length,
              aliases.contains ((slot + 1 + index : Nat) : Int) = true →
                rest[index]? = (first :: rest)[index]? := by
            intro index inside there
            have same := shared (index + 1) (by simpa using inside)
            rw [Nat.add_assoc, Nat.add_comm 1] at there
            simpa using same there
          obtain ⟨front, place, back, rest_eq, size, spanned, last⟩ :=
            ih own others (fun _ => some) solid further found
          refine ⟨offset :: front, place, back, by rw [rest_eq]; rfl, by simp [size], spanned,
            last.trans ?_⟩
          have shift : slot + 1 + index = slot + (index + 1) := by omega
          have total : slot + 1 + rest.length = slot + (first :: rest).length := by
            rw [List.length_cons]
            omega
          rw [shift, total]

end Spans

end Distinct

end FighterData.PointerTable
