import FighterData.Proofs.EntryArray.Slots
import FighterData.Proofs.PointerTable.Blocks
import Mathlib.Data.List.Find

/-! The two measures of a slot. `resolve` measures up to the next slot and `resolveSpan` up to the next
other offset. Both measure every slot of a table under the same condition, that the offsets never
decrease and end before the end of the section. A span is then told by its offset alone, and the spans
of the slots that are no aliases cover the section without a gap and without an overlap. -/
namespace FighterData

/-- Whether the place is one of the bytes that the slot stands for. -/
def Span.contains (span : Span) (place : Int) : Bool :=
  span.position ≤ place && place < span.position + span.length

/-- Spans that follow each other without a gap from `start` up to `finish`. -/
def Span.Tile : Int → List Span → Int → Prop
  | start, [], finish => start = finish
  | start, span :: rest, finish =>
      span.position = start ∧ 0 ≤ span.length ∧ Tile (start + span.length) rest finish

namespace Span

variable {start finish place : Int} {spans : List Span}

theorem Tile.le (tile : Tile start spans finish) : start ≤ finish := by
  induction spans generalizing start with
  | nil => exact Int.le_of_eq tile
  | cons span rest ih =>
      obtain ⟨_, positive, behind⟩ := tile
      have order := ih behind
      omega

/-- Every place is in exactly one of the spans, or in none if it is outside. -/
theorem Tile.countP_contains (tile : Tile start spans finish) :
    spans.countP (·.contains place) = if start ≤ place ∧ place < finish then 1 else 0 := by
  induction spans generalizing start with
  | nil =>
      obtain rfl : start = finish := tile
      rw [if_neg (by omega), List.countP_nil]
  | cons span rest ih =>
      obtain ⟨rfl, positive, behind⟩ := tile
      have order := behind.le
      rw [List.countP_cons, ih behind]
      simp only [contains, Bool.and_eq_true, decide_eq_true_eq]
      by_cases here : span.position ≤ place ∧ place < span.position + span.length
      · rw [if_neg (by omega), if_pos here, if_pos (by omega)]
      · rw [if_neg here]
        split
        · rw [if_pos (by omega)]
        · rw [if_neg (by omega)]

end Span

namespace PointerTable

/-- The offsets never decrease, and the last one is not behind the end. -/
structure Ordered (offsets : List Int) (stop : Int) : Prop where
  increasing : offsets.Pairwise (· ≤ ·)
  bounded : ∀ last ∈ offsets.getLast?, last ≤ stop

/-- Every slot can be measured by `resolve`. -/
def Resolves (table : PointerTable) (stop : Int) : Prop :=
  ∀ slot < table.offsets.length, ∃ found, table.resolve slot stop = .ok found

/-- Every slot can be measured by `resolveSpan`. -/
def ResolvesSpans (table : PointerTable) (stop : Int) : Prop :=
  ∀ slot < table.offsets.length, ∃ span, table.resolveSpan slot stop = .ok span

variable {table : PointerTable} {stop offset : Int} {offsets front rest : List Int} {slot : Nat}

section Measuring

theorem ordered_nil : Ordered [] stop where
  increasing := List.Pairwise.nil
  bounded _ last := by cases last

/-- An offset in front keeps the order if it is not behind the next one. -/
theorem ordered_cons_iff :
    Ordered (offset :: rest) stop ↔ offset ≤ rest.headD stop ∧ Ordered rest stop := by
  cases rest with
  | nil =>
      constructor
      · intro ordered
        exact ⟨ordered.bounded offset rfl, ordered_nil⟩
      · intro ordered
        refine ⟨List.pairwise_singleton _ _, ?_⟩
        intro last same
        rw [← Option.some.inj same]
        exact ordered.1
  | cons next rest =>
      constructor
      · intro ordered
        obtain ⟨least, increasing⟩ := List.pairwise_cons.mp ordered.increasing
        exact ⟨least next List.mem_cons_self, increasing, ordered.bounded⟩
      · intro ordered
        obtain ⟨first, behind⟩ := ordered
        refine ⟨List.pairwise_cons.mpr ⟨?_, behind.increasing⟩, behind.bounded⟩
        intro other member
        obtain rfl | later := List.mem_cons.mp member
        · exact first
        · exact Int.le_trans first ((List.pairwise_cons.mp behind.increasing).1 other later)

/-- What holds of every offset and of those behind it, the first one taken apart. -/
theorem forall_split_cons_iff (holds : Int → List Int → Prop) :
    (∀ front other behind, offset :: rest = front ++ other :: behind → holds other behind) ↔
      holds offset rest ∧
        ∀ front other behind, rest = front ++ other :: behind → holds other behind := by
  constructor
  · intro every
    refine ⟨every [] offset rest rfl, fun front other behind split => ?_⟩
    exact every (offset :: front) other behind (congrArg (offset :: ·) split)
  · intro every front other behind split
    cases front with
    | nil =>
        obtain ⟨rfl, rfl⟩ := List.cons.inj split
        exact every.1
    | cons first front => exact every.2 front other behind (List.cons.inj split).2

theorem exists_split (found : offsets[slot]? = some offset) :
    ∃ front rest, offsets = front ++ offset :: rest ∧ front.length = slot := by
  obtain ⟨inside, rfl⟩ := List.getElem?_eq_some_iff.mp found
  refine ⟨offsets.take slot, offsets.drop (slot + 1), ?_, ?_⟩
  · rw [← List.drop_eq_getElem_cons inside, List.take_append_drop]
  · rw [List.length_take, Nat.min_eq_left (Nat.le_of_lt inside)]

/-- What holds of every slot, in terms of the offsets before it and behind it. -/
theorem forall_slot_iff {holds : Nat → Prop} :
    (∀ slot < offsets.length, holds slot) ↔
      ∀ front offset rest, offsets = front ++ offset :: rest → holds front.length := by
  constructor
  · intro every front offset rest split
    refine every front.length ?_
    rw [split, List.length_append, List.length_cons]
    omega
  · intro every slot inside
    obtain ⟨front, rest, split, rfl⟩ := exists_split (List.getElem?_eq_getElem inside)
    exact every front _ rest split

theorem ordered_iff_split :
    Ordered offsets stop ↔
      ∀ front offset rest, offsets = front ++ offset :: rest → offset ≤ rest.headD stop := by
  induction offsets with
  | nil => exact ⟨fun _ front offset rest split => by simp at split, fun _ => ordered_nil⟩
  | cons offset rest ih =>
      rw [ordered_cons_iff, ih]
      exact (forall_split_cons_iff fun other behind => other ≤ behind.headD stop).symm

/-- A slot is not behind the next other offset exactly if it is not behind the next slot. -/
theorem le_find?_iff (ordered : Ordered rest stop) :
    offset ≤ (rest.find? (· ≠ offset)).getD stop ↔ offset ≤ rest.headD stop := by
  induction rest with
  | nil => rfl
  | cons next rest ih =>
      obtain ⟨order, behind⟩ := ordered_cons_iff.mp ordered
      by_cases same : next = offset
      · rw [List.find?_cons_of_neg (by simpa using same), ih behind, ← same]
        exact ⟨fun _ => Int.le_refl next, fun _ => order⟩
      · rw [List.find?_cons_of_pos (by simpa using same)]
        rfl

theorem ordered_iff_split_find? :
    Ordered offsets stop ↔ ∀ front offset rest, offsets = front ++ offset :: rest →
      offset ≤ (rest.find? (· ≠ offset)).getD stop := by
  induction offsets with
  | nil => exact ⟨fun _ front offset rest split => by simp at split, fun _ => ordered_nil⟩
  | cons offset rest ih =>
      rw [forall_split_cons_iff fun other behind =>
        other ≤ (behind.find? (· ≠ other)).getD stop, ← ih, ordered_cons_iff]
      exact and_congr_left fun ordered => (le_find?_iff ordered).symm

/-- A slot that is refused when it is out of order is measured when it is in order. -/
theorem exists_measured_iff {α : Type} {start finish : Int} {fault : Fault} {found : α} :
    (∃ measured, (if finish < start then .error fault else .ok found : Except Fault α) =
      .ok measured) ↔ start ≤ finish := by
  split
  next crossed => simp [Int.not_le.mpr crossed]
  next order => simp [Int.not_lt.mp order]

theorem resolves_iff : table.Resolves stop ↔ Ordered table.offsets stop := by
  rw [Resolves, forall_slot_iff, ordered_iff_split]
  refine forall_congr' fun front => forall_congr' fun offset => forall_congr' fun rest =>
    imp_congr_right fun split => ?_
  have resolved := @resolve_eq table.base _ _ _ _ table.padding split stop
  rw [resolved]
  exact exists_measured_iff

theorem resolvesSpans_iff : table.ResolvesSpans stop ↔ Ordered table.offsets stop := by
  rw [ResolvesSpans, forall_slot_iff, ordered_iff_split_find?]
  refine forall_congr' fun front => forall_congr' fun offset => forall_congr' fun rest =>
    imp_congr_right fun split => ?_
  have resolved := @resolveSpan_eq table.base _ _ _ _ table.padding split stop
  rw [resolved]
  exact exists_measured_iff

end Measuring

section Spanning

/-- The span of an offset in a table whose offsets never decrease: up to the first larger offset, or to
the end if there is none. -/
def spanOf (table : PointerTable) (stop offset : Int) : Span :=
  let next := table.offsets.find? (offset < ·)
  ⟨table.base + offset, next.getD stop - offset, next.isNone⟩

/-- The slots that are no aliases, in order. -/
def ownSlots (table : PointerTable) : List Nat :=
  (List.range table.offsets.length).filter (· ∉ table.aliases)

theorem Ordered.le_last {last : Int} (ordered : Ordered offsets stop)
    (ending : offsets.getLast? = some last) (member : offset ∈ offsets) : offset ≤ last := by
  obtain ⟨front, rfl⟩ := List.getLast?_eq_some_iff.mp ending
  obtain inside | here := List.mem_append.mp member
  · have order := (List.pairwise_append.mp ordered.increasing).2.2
    exact order offset inside last (List.mem_singleton_self last)
  · exact Int.le_of_eq (List.mem_singleton.mp here)

/-- In an ordered table no offset before a slot is larger, and every other one behind it is. -/
theorem Ordered.find?_larger (ordered : Ordered offsets stop)
    (split : offsets = front ++ offset :: rest) :
    offsets.find? (offset < ·) = rest.find? (· ≠ offset) := by
  obtain ⟨_, behind, before⟩ := List.pairwise_append.mp (split ▸ ordered.increasing)
  have smaller : front.find? (offset < ·) = none := by
    refine List.find?_eq_none.mpr fun other member => ?_
    have order := before other member offset List.mem_cons_self
    simpa using order
  have larger : rest.find? (offset < ·) = rest.find? (· ≠ offset) := by
    refine List.find?_congr fun other member => ?_
    have order := (List.pairwise_cons.mp behind).1 other member
    exact decide_eq_decide.mpr (by omega)
  rw [split, List.find?_append, smaller, Option.none_or, List.find?_cons_of_neg (by simp), larger]

theorem resolveSpan_of_ordered (ordered : Ordered table.offsets stop)
    (found : table.offsets[slot]? = some offset) :
    table.resolveSpan slot stop = .ok (table.spanOf stop offset) := by
  obtain ⟨front, rest, split, rfl⟩ := exists_split found
  have order := ordered_iff_split_find?.mp ordered front offset rest split
  have resolved := @resolveSpan_eq table.base _ _ _ _ table.padding split stop
  rw [if_neg (Int.not_lt.mpr order), ← ordered.find?_larger split] at resolved
  exact resolved

/-- A slot that the next one does not repeat ends where the next one starts, if there is one. -/
theorem resolve_of_ordered (ordered : Ordered table.offsets stop)
    (found : table.offsets[slot]? = some offset)
    (last : table.offsets[slot + 1]? ≠ some offset) :
    table.resolve slot stop =
      .ok ((table.spanOf stop offset).position, (table.spanOf stop offset).length) := by
  obtain ⟨front, rest, split, rfl⟩ := exists_split found
  have order := ordered_iff_split.mp ordered front offset rest split
  have resolved := @resolve_eq table.base _ _ _ _ table.padding split stop
  rw [if_neg (Int.not_lt.mpr order)] at resolved
  have next : rest.headD stop = (rest.find? (· ≠ offset)).getD stop := by
    cases rest with
    | nil => rfl
    | cons next rest =>
        have other : next ≠ offset := by
          intro same
          rw [split, List.getElem?_append_right (Nat.le_add_right _ 1), Nat.add_sub_cancel_left,
            same] at last
          exact last rfl
        rw [List.find?_cons_of_pos (by simpa using other)]
        rfl
  rw [next, ← ordered.find?_larger split] at resolved
  exact resolved

/-- The final run of equal offsets is the one that spans to the end. -/
theorem isLast_spanOf_iff (ordered : Ordered table.offsets stop)
    (found : table.offsets[slot]? = some offset) :
    (table.spanOf stop offset).isLast = true ↔ table.offsets.getLast? = some offset := by
  have member := List.mem_of_getElem? found
  have none : (table.spanOf stop offset).isLast = true ↔
      ∀ other ∈ table.offsets, other ≤ offset := by
    simp [spanOf]
  rw [none]
  constructor
  · intro every
    have ending := List.getLast?_eq_some_getLast (List.ne_nil_of_mem member)
    have upper := every _ (List.mem_of_getLast? ending)
    have lower := ordered.le_last ending member
    rw [ending, Int.le_antisymm upper lower]
  · intro ending other inside
    exact ordered.le_last ending inside

/-- A slot that is measured in front of others, where its span meets theirs. -/
theorem exists_spans_cons {slots : List Nat} {spans : List Span}
    (ordered : Ordered (offset :: rest) stop) (split : table.offsets = front ++ offset :: rest)
    (measured : slots.mapM (table.resolveSpan · stop) = .ok spans)
    (tile : Span.Tile (table.base + (rest.find? (· ≠ offset)).getD stop) spans
      (table.base + stop)) :
    ∃ more, (front.length :: slots).mapM (table.resolveSpan · stop) = .ok more ∧
      Span.Tile (table.base + offset) more (table.base + stop) := by
  obtain ⟨next, behind⟩ := ordered_cons_iff.mp ordered
  have order := (le_find?_iff behind).mpr next
  have resolved := @resolveSpan_eq table.base _ _ _ _ table.padding split stop
  rw [if_neg (Int.not_lt.mpr order)] at resolved
  have sum : table.base + offset + ((rest.find? (· ≠ offset)).getD stop - offset) =
      table.base + (rest.find? (· ≠ offset)).getD stop := by omega
  rw [List.mapM_cons, resolved, measured]
  refine ⟨_, rfl, rfl, Int.sub_nonneg_of_le order, ?_⟩
  rw [sum]
  exact tile

/-- Behind a slot, the slots that are no aliases span what lies behind the run of its offset. -/
theorem exists_own_spans (ordered : Ordered (offset :: rest) stop)
    (split : table.offsets = front ++ offset :: rest) :
    ∃ spans, ((List.range' (front.length + 1) rest.length).filter
        (· ∉ table.aliases)).mapM (table.resolveSpan · stop) = .ok spans ∧
      Span.Tile (table.base + (rest.find? (· ≠ offset)).getD stop) spans (table.base + stop) := by
  induction rest generalizing front offset with
  | nil => exact ⟨[], rfl, rfl⟩
  | cons next rest ih =>
      have behind := (ordered_cons_iff.mp ordered).2
      have deeper : table.offsets = front ++ [offset] ++ next :: rest := by
        rw [split, List.append_assoc]
        rfl
      have size : (front ++ [offset]).length = front.length + 1 := List.length_append
      have shared : front.length + 1 ∈ table.aliases ↔ offset = next := by
        have alike := mem_aliases_iff deeper
        rwa [size, List.getLast?_concat, Option.some_inj, List.contains_iff_mem] at alike
      obtain ⟨spans, measured, tile⟩ := ih behind deeper
      rw [List.length_cons, List.range'_succ]
      by_cases same : offset = next
      · rw [List.filter_cons_of_neg (by simpa using shared.mpr same), ← size]
        refine ⟨spans, measured, ?_⟩
        rw [List.find?_cons_of_neg (by simp [same]), same]
        exact tile
      · rw [List.filter_cons_of_pos (by simpa using mt shared.mp same), ← size,
          List.find?_cons_of_pos (by simpa using Ne.symm same)]
        exact exists_spans_cons behind deeper measured tile

theorem Ordered.exists_tile {first : Int} (ordered : Ordered table.offsets stop)
    (head : table.offsets.head? = some first) :
    ∃ spans, table.ownSlots.mapM (table.resolveSpan · stop) = .ok spans ∧
      Span.Tile (table.base + first) spans (table.base + stop) := by
  obtain ⟨rest, split⟩ := List.head?_eq_some_iff.mp head
  have foremost : table.offsets = [] ++ first :: rest := split
  have own : 0 ∉ table.aliases := by
    intro member
    have before := (mem_aliases_iff foremost).mp (List.contains_iff_mem.mpr member)
    cases before
  rw [split] at ordered
  obtain ⟨spans, measured, tile⟩ := exists_own_spans ordered foremost
  rw [ownSlots, split, List.length_cons, List.range_eq_range', List.range'_succ,
    List.filter_cons_of_pos (by simpa using own)]
  exact exists_spans_cons ordered foremost measured tile

/-- What the two measures say of an ordered table: they agree at the end of each run of equal offsets,
the slots of a run share one span, which is the last one for the final run, and the spans of the slots
that are no aliases cover the section from the first offset on, each place once. -/
structure Measures (table : PointerTable) (first stop : Int) : Prop where
  alike : ∀ (slot : Nat) (offset : Int), table.offsets[slot]? = some offset →
    table.offsets[slot + 1]? ≠ some offset →
      ∃ span, table.resolveSpan slot stop = .ok span ∧
        table.resolve slot stop = .ok (span.position, span.length)
  shared : ∀ (slot other : Nat) (offset : Int), table.offsets[slot]? = some offset →
    table.offsets[other]? = some offset →
      ∃ span, table.resolveSpan slot stop = .ok span ∧ table.resolveSpan other stop = .ok span ∧
        (span.isLast = true ↔ table.offsets.getLast? = some offset)
  tiled : ∃ spans, table.ownSlots.mapM (table.resolveSpan · stop) = .ok spans ∧
    Span.Tile (table.base + first) spans (table.base + stop) ∧
      ∀ place, spans.countP (·.contains place) =
        if table.base + first ≤ place ∧ place < table.base + stop then 1 else 0

theorem Ordered.measures {first : Int} (ordered : Ordered table.offsets stop)
    (head : table.offsets.head? = some first) : table.Measures first stop := by
  refine ⟨?_, ?_, ?_⟩
  · intro slot offset found last
    exact ⟨_, resolveSpan_of_ordered ordered found, resolve_of_ordered ordered found last⟩
  · intro slot other offset found again
    exact ⟨_, resolveSpan_of_ordered ordered found, resolveSpan_of_ordered ordered again,
      isLast_spanOf_iff ordered found⟩
  · obtain ⟨spans, measured, tile⟩ := ordered.exists_tile head
    exact ⟨spans, measured, tile, fun place => tile.countP_contains⟩

/-- Both measures succeed for every slot under one condition on the offsets, and under this condition
they agree and cover the section. -/
theorem measures_agree_and_tile (table : PointerTable) {first : Int} (stop : Int)
    (head : table.offsets.head? = some first) :
    (table.Resolves stop ↔ table.ResolvesSpans stop) ∧
      (table.ResolvesSpans stop ↔ Ordered table.offsets stop) ∧
      (Ordered table.offsets stop → table.Measures first stop) :=
  ⟨resolves_iff.trans resolvesSpans_iff.symm, resolvesSpans_iff, fun ordered =>
    ordered.measures head⟩

/-- Three runs, the last of which ends where the section does. -/
def threeRuns : PointerTable :=
  ⟨5, [16, 16, 20, 24, 24], 4⟩

theorem measures_agree_and_tile_threeRuns :
    threeRuns.offsets.head? = some 16 ∧ Ordered threeRuns.offsets 24 ∧
      threeRuns.Measures 16 24 ∧ ¬ threeRuns.Resolves 23 := by
  have ordered : Ordered threeRuns.offsets 24 := ⟨by decide, by decide⟩
  have within := measures_agree_and_tile threeRuns 24 rfl
  have short := measures_agree_and_tile threeRuns 23 rfl
  refine ⟨rfl, ordered, within.2.2 ordered, fun resolves => ?_⟩
  have crossed := (short.2.1.mp (short.1.mp resolves)).bounded 24 rfl
  omega

end Spanning

end PointerTable

end FighterData
